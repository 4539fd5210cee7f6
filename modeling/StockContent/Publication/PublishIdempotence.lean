import StockContent.Publication.SoundTables

/-! A publication that succeeded, published again. -/
namespace StockContent.Publication
open Storage Procedure PublicationUnitOfWork

section Retry
variable {R : Type} {hashes : PublicationHashes} {texts : Signals.OutboxTexts} {request : PublishRequest} {db : PublicationDb R}
  {run : ContentPublicationRun} {signals : List Payload}

/-- The document a manifest hash is taken of. -/
def sealedDocument (request : PublishRequest) : Json :=
  (Json.obj [("manifest", .obj request.manifest), ("signals", .arr (request.signals.map .obj)),
    ("outbox", .arr (request.outboxEvents.map .obj))]).canonical

/-- The request again, with its signals as they are supplied now. -/
def PublishRequest.again (request : PublishRequest) (signals : List Payload)
    (failureHook : String → Except PublicationError Unit) : PublishRequest :=
  { request with signals, failureHook }

/-- The signals come in the order of the first call, up to the order of the keys in each. -/
def SameOrder (request : PublishRequest) (signals : List Payload) : Prop :=
  signals.map (fun payload => (Json.obj payload).canonical) =
    request.signals.map fun payload => (Json.obj payload).canonical

theorem sealedDocument_again (failureHook : String → Except PublicationError Unit) :
    sealedDocument (request.again signals failureHook) = sealedDocument request ↔ SameOrder request signals := by
  have hkeys : ["manifest", "signals", "outbox"].Nodup := by decide
  refine (Json.canonical_obj_iff ?_ ?_).trans ?_
  · rfl
  · exact hkeys
  · rw [SameOrder]
    simp only [PublishRequest.again, List.map_cons, List.map_nil, List.cons.injEq, true_and, and_true, Json.canonical_arr,
      Json.arr.injEq, List.map_map]
    rfl

/-- Two documents with one digest are one document, as far as this retry goes. -/
def NoCollision (hashes : PublicationHashes) (request : PublishRequest) (signals : List Payload) : Prop :=
  ∀ failureHook, hashes.manifest (sealedDocument (request.again signals failureHook)) =
    hashes.manifest (sealedDocument request) →
    sealedDocument (request.again signals failureHook) = sealedDocument request

theorem manifestHash_again (hcollision : NoCollision hashes request signals)
    (failureHook : String → Except PublicationError Unit) :
    manifestHash hashes (request.again signals failureHook) = manifestHash hashes request ↔ SameOrder request signals := by
  rw [← sealedDocument_again failureHook]
  exact ⟨hcollision failureHook, fun h => congrArg hashes.manifest h⟩

/-- What a publication that returned leaves for a retry. -/
structure Published (hashes : PublicationHashes) (texts : Signals.OutboxTexts) (request : PublishRequest)
    (db : PublicationDb R)
    (run : ContentPublicationRun) : Prop where
  read : getByIdentity hashes request.identity db.runs = .ok (some run)
  hashed : run.manifestHash = some (manifestHash hashes request)
  manifest : Manifested hashes request.identity request.manifest db.manifests
  signals : (request.signals.map (Signals.signalIdOf texts)).Nodup → KeyedSignals texts request.signals ∧
    ∃ stored, signalKeyedSet texts (listSealedSignals (run.publicationRunId hashes) db.sealedSignals) = .ok stored ∧
      (Json.obj stored).same (.obj (request.signals.map (KeyedSet.entry texts))) = true

theorem same_trans {a b c : Json} (hab : a.same b = true) (hbc : b.same c = true) : a.same c = true := by
  rw [Json.same, beq_iff_eq] at hab hbc ⊢
  exact hab.trans hbc

/-- A retry returns the run exactly when the signals come in the same order and every id once. -/
theorem Published.again_iff (h : Published hashes texts request db run) (hperm : signals.Perm request.signals)
    (hcollision : NoCollision hashes request signals) (failureHook : String → Except PublicationError Unit) {now : Time}
    {uow : PublicationUnitOfWork (PublicationDb R)} (hsql : uow.repository = sqlRepository hashes texts now) :
    uow.publish hashes (request.again signals failureHook) db = (db, .ok run) ↔
      SameOrder request signals ∧ (request.signals.map (Signals.signalIdOf texts)).Nodup := by
  have hidentity := (getByIdentity_some h.read).1
  have hread : getByIdentity hashes (request.again signals failureHook).identity db.runs = .ok (some run) := h.read
  rw [publish_existing hsql hread, verifySealed_ok, h.hashed, Option.some_inj, eq_comm, manifestHash_again hcollision]
  constructor
  · rintro ⟨horder, _, _, _, retried, _, hretried, _⟩
    obtain ⟨hkeyed, _⟩ := signalKeyedSet_ok.mp hretried
    exact ⟨horder, (hperm.map _).nodup_iff.mp hkeyed.2⟩
  · rintro ⟨horder, hnodup⟩
    obtain ⟨hkeyed, stored, hstored, hsame⟩ := h.signals hnodup
    refine ⟨horder, hidentity ▸ h.manifest, horder, stored, signals.map (KeyedSet.entry texts), hstored,
      signalKeyedSet_ok.mpr ⟨hkeyed.perm hperm, rfl⟩, ?_⟩
    exact same_trans hsame (same_entries (hkeyed.perm hperm) hperm.symm)

end Retry

section First
variable {R : Type} {hashes : PublicationHashes} {texts : Signals.OutboxTexts} {now : Time} {request : PublishRequest}
  {db db' : PublicationDb R} {run : ContentPublicationRun}

/-- What was sealed when the run was built is what a retry is compared with. -/
theorem Stage.published (hsound : Sound hashes db) (hapart : SealsApart hashes)
    (h : Stage hashes request.identity db (Manifested hashes request.identity request.manifest)
      (SealedFrom hashes texts now request.identity request.signals db.sealedSignals) (some (manifestHash hashes request)) run db') :
    Published hashes texts request db' run := by
  refine ⟨h.assembled.read, h.hashed, h.manifest, fun hnodup => ?_⟩
  obtain ⟨snapshotId, hsealed⟩ := h.signals
  have hkeyed : KeyedSignals texts request.signals := ⟨sealSignals_named hsealed, hnodup⟩
  have hrows := sealSignals_rows (fun payload _ => hsound.sealFree hapart h.free _)
    (fun payload _ other _ hsame => (hapart _ _ _ _ hsame).2) hnodup hsealed
  have hid : run.publicationRunId hashes = request.identity.publicationRunId hashes :=
    congrArg (PublicationIdentity.publicationRunId hashes) h.assembled.named
  have hperm := listSealed_perm (hsound.unsealed h.free) hrows
  rw [hid]
  exact ⟨hkeyed, _, signalKeyedSet_ok.mpr ⟨hkeyed.perm hperm, rfl⟩, same_entries hkeyed hperm⟩

/-- A publication that returned is one that a retry finds. -/
theorem publish_published (hsound : Sound hashes db) (hapart : SealsApart hashes)
    (validate : Payload → Except PublicationError Unit)
    (snapshotWriter : PublishRequest → Procedure R PublicationError Unit)
    (outboxWriter : List Payload → Procedure R PublicationError Unit)
    (h : (sqlUnitOfWork hashes texts now validate snapshotWriter outboxWriter).publish hashes request db = (db', .ok run)) :
    Published hashes texts request db' run := by
  have hsql : (sqlUnitOfWork hashes texts now validate snapshotWriter outboxWriter).repository =
    sqlRepository hashes texts now := rfl
  rcases publish_ok hsql h with ⟨rfl, hread, hhash, hverify⟩ | ⟨hnone, first, hidentity, hhash, hcreated⟩
  · obtain ⟨hmanifest, _, stored, retried, hstored, hretried, hsame⟩ := verifySealed_ok.mp hverify
    obtain ⟨hkeyed, rfl⟩ := signalKeyedSet_ok.mp hretried
    exact ⟨hread, hhash, (getByIdentity_some hread).1 ▸ hmanifest, fun _ => ⟨hkeyed, stored, hstored, hsame⟩⟩
  · exact ((createRun_stage validate snapshotWriter outboxWriter hidentity hhash hnone).ok rfl hcreated).published hsound hapart

end First

section InMemory
variable {G R : Type} {hashes : PublicationHashes} {request : PublishRequest} {uow : PublicationUnitOfWork (InMemoryDb G R)}
  {run : ContentPublicationRun} {signals : List Payload}

/-- The run of the identity, with the hash of the payload. -/
def Held (hashes : PublicationHashes) (request : PublishRequest) (run : ContentPublicationRun)
    (db : InMemoryDb G R) : Prop :=
  db.runs.lookup request.identity = some run ∧ run.manifestHash = some (manifestHash hashes request)

theorem saveState_held (huow : uow.repository = inMemoryRepository) (target : PublicationState) (given : Option String) :
    Triple (fun _ => True) (uow.saveState request run target given)
      (fun run' db => run.transition target given = .ok run' ∧ db.runs.lookup run'.identity = some run')
      (fun _ _ => True) := by
  refine Triple.bind (Q := fun updated _ => run.transition target given = .ok updated) ?_ fun updated => ?_
  · exact Triple.attempt (fun updated hok _ _ => hok) fun _ _ _ _ => trivial
  · refine Triple.bind (Q := fun _ _ => run.transition target given = .ok updated)
      (Triple.attempt (fun _ _ _ h => h) fun _ _ _ _ => trivial) fun _ => ?_
    rw [huow]
    refine Triple.bind (Q := fun _ db => run.transition target given = .ok updated ∧
      db.runs.lookup updated.identity = some updated)
      (Triple.step fun db h => ⟨h, ?_⟩) fun _ => Triple.pure fun _ h => h
    exact (Dict.lookup_set ..).trans (if_pos rfl)

/-- A run that is under way keeps its identity and has no hash. -/
theorem saveState_unhashed (huow : uow.repository = inMemoryRepository) (hrun : Unhashed request.identity run)
    (target : PublicationState) :
    Triple (fun _ => True) (uow.saveState request run target none)
      (fun run' _ => Unhashed request.identity run' ∧ True) (fun _ _ => True) := by
  refine (saveState_held huow target none).post fun run' _ h => ⟨?_, trivial⟩
  obtain ⟨_, _, rfl⟩ := ContentPublicationRun.transition_ok.mp h.1
  exact hrun

theorem anyState {S A : Type} (x : Procedure S PublicationError A) :
    Triple (fun _ => True) x (fun _ _ => True) (fun _ _ => True) := by
  intro s _
  cases hx : x.exec s with
  | mk s' result => cases result <;> trivial

theorem createRun_held (huow : uow.repository = inMemoryRepository) (hrun : Unhashed request.identity run) :
    Triple (fun _ => True) (uow.createRun hashes request run) (Held hashes request) (fun _ _ => True) := by
  refine Triple.bind (saveState_unhashed huow hrun .projecting) fun run' => Triple.fact fun hrun' => ?_
  refine Triple.bind (anyState _) fun _ => ?_
  refine Triple.bind (anyState _) fun _ => ?_
  refine Triple.bind (anyState _) fun _ => ?_
  refine Triple.bind (saveState_unhashed huow hrun' .sealing) fun run'' => Triple.fact fun hrun'' => ?_
  refine Triple.bind (anyState _) fun _ => ?_
  refine Triple.bind (anyState _) fun _ => ?_
  refine Triple.bind (anyState _) fun _ => ?_
  refine Triple.bind (anyState _) fun _ => ?_
  refine (saveState_held huow .ready (some (manifestHash hashes request))).post fun run3 db h => ?_
  obtain ⟨htransition, hlookup⟩ := h
  obtain ⟨_, hready, rfl⟩ := ContentPublicationRun.transition_ok.mp htransition
  obtain ⟨hidentity, hhash⟩ := hrun''
  have hsealed := hready rfl
  rw [hhash] at hsealed
  rw [Held, ← hidentity]
  refine ⟨hlookup, ?_⟩
  change ContentPublicationRun.sealedHash _ run''.manifestHash = _
  rw [hhash]
  exact sealedHash_some hsealed

theorem existingRun_held (huow : uow.repository = inMemoryRepository) (db : InMemoryDb G R) :
    (uow.existingRun hashes request).exec db =
      (db, (db.runs.lookup request.identity).elim (.ok none) fun run =>
        if run.manifestHash = some (manifestHash hashes request) then .ok (some run)
        else .error (.publicationConflict
          "publication identity already contains a different sealed snapshot/signals payload")) := by
  have hget : (uow.repository.getByIdentity request.identity).exec db = (db, .ok (db.runs.lookup request.identity)) := by
    rw [huow]
    rfl
  rw [existingRun, exec_bind_ok hget]
  cases db.runs.lookup request.identity with
  | none => rfl
  | some run =>
    rw [checkExisting, Option.elim_some]
    by_cases hhash : run.manifestHash = some (manifestHash hashes request)
    · rw [if_pos hhash, require, if_pos (decide_eq_true hhash), exec_attempt_bind, huow]
      rfl
    · rw [if_neg hhash, require, if_neg (by rw [decide_eq_true_iff]; exact hhash)]
      rfl

/-- However a publication in memory came to return, its run is held with its hash. -/
theorem publish_held (huow : uow.repository = inMemoryRepository) {db db' : InMemoryDb G R}
    (h : uow.publish hashes request db = (db', .ok run)) : Held hashes request run db' := by
  obtain ⟨first, hcreate, hreturned⟩ := publish_returned h
  rw [existingRun_held huow] at hreturned
  obtain hfound | ⟨_, hnone, hcreated⟩ | ⟨_, failed, _, hrecovered, _⟩ := hreturned
  · cases hlookup : db.runs.lookup request.identity with
    | none =>
      rw [hlookup] at hfound
      cases hfound
    | some existing =>
      rw [hlookup, Option.elim_some] at hfound
      by_cases hhash : existing.manifestHash = some (manifestHash hashes request)
      · rw [if_pos hhash] at hfound
        cases hfound
        exact ⟨hlookup, hhash⟩
      · rw [if_neg hhash] at hfound
        cases hfound
  · obtain ⟨hidentity, _, hhash, _⟩ := ContentPublicationRun.create_ok hcreate
    exact (createRun_held huow ⟨hidentity, hhash⟩).ok trivial hcreated
  · -- The run that won the race is read from what the raise left.
    obtain ⟨_, hread, hhash⟩ := recover_returned hrecovered
    rw [huow] at hread
    have hstate : failed = db' := congrArg Prod.fst hread
    have hlookup : failed.runs.lookup request.identity = some run := Except.ok.inj (congrArg Prod.snd hread)
    exact ⟨hstate ▸ hlookup, hhash⟩

theorem publish_named {db db' : InMemoryDb G R} (h : uow.publish hashes request db = (db', .ok run)) :
    request.identity.Named := by
  by_contra hnamed
  rw [publish, ContentPublicationRun.create, dif_neg hnamed] at h
  cases h

/-- In memory only the payload as a whole is compared. -/
theorem Held.again_iff (huow : uow.repository = inMemoryRepository) (hnamed : request.identity.Named)
    {db : InMemoryDb G R} (h : Held hashes request run db)
    (hcollision : NoCollision hashes request signals) (failureHook : String → Except PublicationError Unit) :
    uow.publish hashes (request.again signals failureHook) db = (db, .ok run) ↔ SameOrder request signals := by
  have hlookup : db.runs.lookup (request.again signals failureHook).identity = some run := h.1
  rw [← manifestHash_again hcollision failureHook]
  constructor
  · intro hagain
    have hheld := (publish_held huow hagain).2
    exact Option.some_inj.mp (hheld.symm.trans h.2)
  · intro hhash
    have hagain : (request.again signals failureHook).identity.Named := hnamed
    obtain ⟨first, hfirst⟩ := ContentPublicationRun.create_named hashes hagain
    rw [publish, hfirst, existingRun_held huow, hlookup, Option.elim_some, if_pos (by rw [hhash]; exact h.2)]

end InMemory

/-- The same snapshot and signals, published again. The service returns its run and leaves
every table as it was exactly when the signals come in the order of the first call and no
two of them share an id; in memory, exactly when they come in that order. -/
theorem publish_again_iff {G R : Type} (hashes : PublicationHashes) (request : PublishRequest) (signals : List Payload)
    (hperm : signals.Perm request.signals) (hcollision : NoCollision hashes request signals) (hapart : SealsApart hashes) :
    (∀ (texts : Signals.OutboxTexts) (rest : R) calls now validate snapshotWriter outboxWriter db run,
      (sqlUnitOfWork hashes texts now validate snapshotWriter outboxWriter).publish hashes request
        ((publicationStore hashes texts).run (unpublished rest) calls) = (db, .ok run) →
      ∀ now' validate' snapshotWriter' outboxWriter' failureHook,
        (sqlUnitOfWork hashes texts now' validate' snapshotWriter' outboxWriter').publish hashes
          (request.again signals failureHook) db = (db, .ok run) ↔
            SameOrder request signals ∧ (request.signals.map (Signals.signalIdOf texts)).Nodup) ∧
    ∀ snapshotWriter signalWriter outboxWriter (db db' : InMemoryDb G R) run,
      (inMemoryUnitOfWork snapshotWriter signalWriter outboxWriter).publish hashes request db = (db', .ok run) →
      ∀ failureHook, (inMemoryUnitOfWork snapshotWriter signalWriter outboxWriter).publish hashes
        (request.again signals failureHook) db' = (db', .ok run) ↔ SameOrder request signals := by
  constructor
  · intro texts rest calls now validate snapshotWriter outboxWriter db run h now' validate' snapshotWriter' outboxWriter' failureHook
    have hpublished := publish_published (sound_run rest calls) hapart validate snapshotWriter outboxWriter h
    exact hpublished.again_iff hperm hcollision failureHook rfl
  · intro snapshotWriter signalWriter outboxWriter db db' run h failureHook
    exact (publish_held rfl h).again_iff rfl (publish_named h) hcollision failureHook

/-- A publication that returns is returned again and leaves the tables alone. -/
def ReturnsAgain {S : Type} (uow : PublicationUnitOfWork S) (hashes : PublicationHashes) (request : PublishRequest)
    (signals : List Payload) (s : S) : Prop :=
  ∀ s' run, uow.publish hashes request s = (s', .ok run) →
    uow.publish hashes (request.again signals request.failureHook) s' = (s', .ok run)

def firstSignal : Payload := [("signal_id", .str "s1")]
def secondSignal : Payload := [("signal_id", .str "s2")]

def twoSignals : PublishRequest where
  identity := ⟨"snap-1", "q", "p"⟩
  manifest := []
  signals := [firstSignal, secondSignal]

/-- The digests of this publication, of its two signals and of both orders of them. -/
def twoHashes : PublicationHashes where
  identity _ := "940eab6e382db0d048ec1ad2e53b6228"
  signal text :=
    if text = "pub_940eab6e382db0d048ec1ad2e53b6228:s1" then "c785c59f9782bc6074971d77ce17661b"
    else if text = "pub_940eab6e382db0d048ec1ad2e53b6228:s2" then "46dccea1aab3bfede16540cacef542db"
    else text
  manifest document :=
    if document = sealedDocument twoSignals then "b8ab3f0814eaabfafc921da7a4abce34330b744e7f750aa8a3c86a03f4956d62"
    else "0f684c4497aa139726ef379e74f5b2d7597aaf560f3bc64f175a9926b2d1674f"

def plainTexts : Signals.OutboxTexts := ⟨id, Json.strOf fun _ => ""⟩

def service : PublicationUnitOfWork (PublicationDb Unit) :=
  sqlUnitOfWork twoHashes plainTexts 0 (fun _ => .ok ()) (fun _ => pure ()) fun _ => pure ()

theorem first_returns : ∃ db run, service.publish twoHashes twoSignals (unpublished ()) = (db, .ok run) := by
  have hreturned : (service.publish twoHashes twoSignals (unpublished ())).2.toBool = true := by decide
  obtain ⟨run, hrun⟩ := toBool_eq_true.mp hreturned
  exact ⟨_, run, Prod.ext rfl hrun⟩

theorem twoHashes_signal {text other : String} (htext : text.toList.head? = some 'p')
    (hother : other.toList.head? = some 'p')
    (h : twoHashes.signal text = twoHashes.signal other) : text = other := by
  simp only [twoHashes] at h
  split_ifs at h <;> subst_vars <;> first | rfl | exact absurd h (by decide) | exact absurd hother (by decide) |
    exact absurd htext (by decide)

/-- The digests tell the two signals apart. -/
theorem twoHashes_apart : SealsApart twoHashes := by
  intro identity other signalId otherId h
  refine ⟨rfl, ?_⟩
  have hsignal := (String.append_right_inj _).mp h
  have hhead (identity : PublicationIdentity) (signalId : String) :
      (identity.publicationRunId twoHashes ++ ":" ++ signalId).toList.head? = some 'p' := by
    simp [PublicationIdentity.publicationRunId]
  have htext := twoHashes_signal (hhead _ _) (hhead _ _) hsignal
  exact (String.append_right_inj _).mp htext

/-- A retry with the signals in their order. -/
theorem same_order_returns : ReturnsAgain service twoHashes twoSignals [firstSignal, secondSignal] (unpublished ()) := by
  intro db run h
  have hagain := (publish_again_iff (G := Unit) twoHashes twoSignals [firstSignal, secondSignal] (.refl _) (fun _ _ => rfl)
    twoHashes_apart).1 plainTexts () [] 0 _ _ _ db run h 0 (fun _ => .ok ()) (fun _ => pure ()) (fun _ => pure ())
      twoSignals.failureHook
  exact hagain.mpr ⟨rfl, by decide⟩

/-- The other order is refused. -/
theorem other_order_refused : ¬ ReturnsAgain service twoHashes twoSignals [secondSignal, firstSignal] (unpublished ()) := by
  intro h
  obtain ⟨db, run, hfirst⟩ := first_returns
  have hagain := congrArg (fun outcome => outcome.2.toBool) (h db run hfirst)
  have hrefused : (service.publish twoHashes (twoSignals.again [secondSignal, firstSignal] twoSignals.failureHook)
      (service.publish twoHashes twoSignals (unpublished ())).1).2.toBool = false := by decide
  rw [hfirst] at hrefused
  cases hrefused.symm.trans hagain

end StockContent.Publication
