import StockContent.Publication.PublicationStages
import StockContent.Publication.PublishAtomicity

/-! How a publication comes to return: it finds its run and compares the payload with what
was sealed, as a whole and signal by signal, or it builds the run. -/
namespace StockContent.Publication
open Storage Procedure PublicationUnitOfWork

section Verify
variable {hashes : PublicationHashes} {texts : Signals.OutboxTexts}

theorem signalKeyedSet_error {signals : List Payload} {e : PublicationError} (h : signalKeyedSet texts signals = .error e) :
    e.ordinary = true := by
  induction signals using List.reverseRecOn generalizing e with
  | nil => cases h
  | append_singleton signals payload ih =>
    rw [signalKeyedSet, List.foldlM_append] at h
    rcases bind_eq_error.mp h with hbefore | ⟨keyed, _, hlast⟩
    · exact ih hbefore
    · rcases bind_eq_error.mp hlast with hpayload | ⟨_, _, hdone⟩
      · rcases bind_eq_error.mp hpayload with hid | ⟨_, _, hfresh⟩
        · exact (require_eq_error.mp hid).2 ▸ rfl
        · rcases bind_eq_error.mp hfresh with hfresh | ⟨_, _, hdone⟩
          · exact (require_eq_error.mp hfresh).2 ▸ rfl
          · cases hdone
      · cases hdone

variable {R : Type} {run : ContentPublicationRun} {manifest : Payload} {signals : List Payload} {sealedHash : String}
  {db : PublicationDb R}

/-- What a retry is compared with. -/
theorem verifySealed_ok : verifySealed hashes texts run manifest signals sealedHash db = .ok () ↔
    Manifested hashes run.identity manifest db.manifests ∧ run.manifestHash = some sealedHash ∧
      ∃ stored retried, signalKeyedSet texts (listSealedSignals (run.publicationRunId hashes) db.sealedSignals) =
        .ok stored ∧
        signalKeyedSet texts signals = .ok retried ∧ (Json.obj stored).same (.obj retried) = true := by
  have hid : run.identity.publicationRunId hashes = run.publicationRunId hashes := rfl
  rw [verifySealed, Manifested, hid]
  cases hget : db.manifests.get (run.publicationRunId hashes) with
  | none => exact iff_of_false nofun fun h => by obtain ⟨⟨_, hrow, _⟩, _⟩ := h; cases hrow
  | some row =>
    dsimp only
    rw [then_eq_ok, require_eq_ok, bind_eq_ok]
    constructor
    · rintro ⟨hmanifest, stored, hstored, hrest⟩
      obtain ⟨retried, hretried, hrest⟩ := bind_eq_ok.mp hrest
      rw [then_eq_ok, require_eq_ok, require_eq_ok, decide_eq_true_iff] at hrest
      exact ⟨⟨row, rfl, hmanifest⟩, hrest.2, stored, retried, hstored, hretried, hrest.1⟩
    · rintro ⟨⟨row', hrow, hmanifest⟩, hhash, stored, retried, hstored, hretried, hsame⟩
      cases hrow
      refine ⟨hmanifest, stored, hstored, bind_eq_ok.mpr ⟨retried, hretried, ?_⟩⟩
      rw [then_eq_ok, require_eq_ok, require_eq_ok, decide_eq_true_iff]
      exact ⟨hsame, hhash⟩

theorem verifySealed_error {e : PublicationError}
    (h : verifySealed hashes texts run manifest signals sealedHash db = .error e) :
    e.ordinary = true := by
  rw [verifySealed] at h
  cases hget : db.manifests.get (run.publicationRunId hashes) with
  | none =>
    rw [hget] at h
    cases h
    rfl
  | some row =>
    rw [hget] at h
    rcases bind_eq_error.mp h with hmanifest | ⟨_, _, h⟩
    · exact (require_eq_error.mp hmanifest).2 ▸ rfl
    rcases bind_eq_error.mp h with hstored | ⟨_, _, h⟩
    · exact signalKeyedSet_error hstored
    rcases bind_eq_error.mp h with hretried | ⟨_, _, h⟩
    · exact signalKeyedSet_error hretried
    rcases bind_eq_error.mp h with hsame | ⟨_, _, hhash⟩
    · exact (require_eq_error.mp hsame).2 ▸ rfl
    · exact (require_eq_error.mp hhash).2 ▸ rfl

end Verify

section Sql
variable {R : Type} {hashes : PublicationHashes} {texts : Signals.OutboxTexts} {now : Time} {request : PublishRequest}
  {uow : PublicationUnitOfWork (PublicationDb R)} {db db' : PublicationDb R} {run : ContentPublicationRun}

/-- Looking for the run changes nothing. -/
theorem existingRun_sql (hsql : uow.repository = sqlRepository hashes texts now) {existing : Option ContentPublicationRun}
    (hread : getByIdentity hashes request.identity db.runs = .ok existing) : (uow.existingRun hashes request).exec db =
      (db, existing.elim (.ok none) fun run =>
        if run.manifestHash = some (manifestHash hashes request) then
          (verifySealed hashes texts run request.manifest request.signals (manifestHash hashes request) db).map fun _ => some run
        else .error (.publicationConflict
          "publication identity already contains a different sealed snapshot/signals payload")) := by
  have hget : (uow.repository.getByIdentity request.identity).exec db = (db, .ok existing) := by
    rw [hsql, ← hread]
    rfl
  rw [existingRun, exec_bind_ok hget]
  cases existing with
  | none => rfl
  | some run =>
    rw [checkExisting, Option.elim_some]
    by_cases hhash : run.manifestHash = some (manifestHash hashes request)
    · rw [if_pos hhash, require, if_pos (decide_eq_true hhash), exec_attempt_bind, hsql]
      change ((step fun db => (db, verifySealed hashes texts run request.manifest request.signals
        (manifestHash hashes request) db)) >>= fun _ => pure (some run)).exec db = _
      rw [exec_bind, exec_step]
      cases verifySealed hashes texts run request.manifest request.signals (manifestHash hashes request) db <;> rfl
    · rw [if_neg hhash, require, if_neg (by rw [decide_eq_true_iff]; exact hhash)]
      rfl

/-- The run that won a race was stored when the call began. -/
theorem recover_ok (hsql : uow.repository = sqlRepository hashes texts now) {createdRun : Bool} {failed : PublicationDb R}
    {e : PublicationError} (h : uow.recover hashes request createdRun db failed e = (db', .ok run)) :
    e = .integrityError ∧ getByIdentity hashes request.identity db.runs = .ok (some run) := by
  obtain ⟨he, hread, _⟩ := recover_returned h
  rw [hsql] at hread
  exact ⟨he, congrArg Prod.snd hread⟩

/-- A call that returned found its run and checked it, or built it. -/
theorem publish_ok (hsql : uow.repository = sqlRepository hashes texts now)
    (h : uow.publish hashes request db = (db', .ok run)) :
    (db' = db ∧ getByIdentity hashes request.identity db.runs = .ok (some run) ∧
      run.manifestHash = some (manifestHash hashes request) ∧
        verifySealed hashes texts run request.manifest request.signals (manifestHash hashes request) db = .ok ()) ∨
    (getByIdentity hashes request.identity db.runs = .ok none ∧ ∃ first, first.identity = request.identity ∧
      first.manifestHash = none ∧ (uow.createRun hashes request first).exec db = (db', .ok run)) := by
  obtain ⟨first, hcreate, hreturned⟩ := publish_returned h
  cases hread : getByIdentity hashes request.identity db.runs with
  | error e =>
    have hget : (uow.repository.getByIdentity request.identity).exec db = (db, .error e) := by
      rw [hsql, ← hread]
      rfl
    rw [existingRun, exec_bind_error hget] at hreturned
    obtain hfound | ⟨_, hnone, _⟩ | ⟨_, _, _, hrecovered, _⟩ := hreturned
    · cases hfound
    · cases hnone
    · cases (recover_ok hsql hrecovered).2.symm.trans hread
  | ok existing =>
    rw [existingRun_sql hsql hread] at hreturned
    cases existing with
    | none =>
      obtain ⟨hidentity, _, hhash, _⟩ := ContentPublicationRun.create_ok hcreate
      obtain hfound | ⟨_, hnone, hcreated⟩ | ⟨_, _, _, hrecovered, _⟩ := hreturned
      · cases hfound
      · cases hnone
        exact .inr ⟨rfl, first, hidentity, hhash, hcreated⟩
      · cases (recover_ok hsql hrecovered).2.symm.trans hread
    | some existing =>
      rw [Option.elim_some] at hreturned
      by_cases hhash : existing.manifestHash = some (manifestHash hashes request)
      · rw [if_pos hhash] at hreturned
        cases hverify : verifySealed hashes texts existing request.manifest request.signals (manifestHash hashes request) db with
        | error e =>
          rw [hverify] at hreturned
          obtain hfound | ⟨_, hnone, _⟩ | ⟨_, _, _, hrecovered, hraised | ⟨_, hnone⟩⟩ := hreturned
          · cases hfound
          · cases hnone
          · cases hraised
            rw [(recover_ok hsql hrecovered).1] at hverify
            cases verifySealed_error hverify
          · cases hnone
        | ok _ =>
          rw [hverify] at hreturned
          obtain hfound | ⟨_, hnone, _⟩ | ⟨_, _, _, _, hraised | ⟨_, hnone⟩⟩ := hreturned
          · cases hfound
            exact .inl ⟨rfl, rfl, hhash, hverify⟩
          · cases hnone
          · cases hraised
          · cases hnone
      · rw [if_neg hhash] at hreturned
        obtain hfound | ⟨_, hnone, _⟩ | ⟨_, _, _, hrecovered, hraised | ⟨_, hnone⟩⟩ := hreturned
        · cases hfound
        · cases hnone
        · cases hraised
          cases (recover_ok hsql hrecovered).1
        · cases hnone

/-- A run that is stored is returned when the payload passes both comparisons. -/
theorem publish_existing (hsql : uow.repository = sqlRepository hashes texts now)
    (hread : getByIdentity hashes request.identity db.runs = .ok (some run)) :
    uow.publish hashes request db = (db, .ok run) ↔ run.manifestHash = some (manifestHash hashes request) ∧
      verifySealed hashes texts run request.manifest request.signals (manifestHash hashes request) db = .ok () := by
  constructor
  · intro h
    rcases publish_ok hsql h with ⟨_, _, hhash, hverify⟩ | ⟨hnone, _⟩
    · exact ⟨hhash, hverify⟩
    · cases hread.symm.trans hnone
  · rintro ⟨hhash, hverify⟩
    have hidentity := (getByIdentity_some hread).1
    obtain ⟨first, hfirst⟩ := ContentPublicationRun.create_named hashes (hidentity ▸ run.named)
    rw [publish, hfirst]
    dsimp only
    rw [existingRun_sql hsql hread, Option.elim_some, if_pos hhash, hverify]
    rfl

end Sql

end StockContent.Publication
