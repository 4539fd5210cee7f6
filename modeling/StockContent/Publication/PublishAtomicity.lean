import StockContent.Publication.PublicationClients
import StockContent.Publication.PublicationUnitOfWork

/-! What a publication that raised leaves behind. A transaction takes everything back; in
memory only the unfinished run is taken back, and only for what `except Exception` sees. -/
namespace StockContent.Publication
open Storage Procedure PublicationUnitOfWork

variable {hashes : PublicationHashes} {request : PublishRequest}

/-- The outcome of a call: nothing is asked of one that returned, and one that raised
leaves a state that meets `kept`. -/
def RaisesWith {S A : Type} (kept : S → Prop) (outcome : S × Except PublicationError A) : Prop :=
  Holds (fun _ _ => True) (fun _ s => kept s) outcome

section Recover
variable {S : Type} {uow : PublicationUnitOfWork S}

theorem recover_race (createdRun : Bool) (before failed : S) :
    uow.recover hashes request createdRun before failed .integrityError =
    uow.settleRace hashes request (if uow.repository.transaction then before else failed) := rfl

theorem recover_of_ne (createdRun : Bool) (before failed : S) {e : PublicationError} (he : e ≠ .integrityError) :
    uow.recover hashes request createdRun before failed e =
      (if e.ordinary && createdRun then
        uow.repository.forget request.identity (if uow.repository.transaction then before else failed)
      else if uow.repository.transaction then before else failed, .error e) := by
  cases e with
  | integrityError => exact absurd rfl he
  | valueError message | publicationConflict message | raised message | interrupted message => rfl

/-- After a raise only a race that another publisher won returns a run, sealed with the same payload. -/
theorem recover_returned {createdRun : Bool} {before failed s' : S} {e : PublicationError} {run : ContentPublicationRun}
    (h : uow.recover hashes request createdRun before failed e = (s', .ok run)) :
    e = .integrityError ∧ (uow.repository.getByIdentity request.identity).exec
      (if uow.repository.transaction then before else failed) = (s', .ok (some run)) ∧
      run.manifestHash = some (manifestHash hashes request) := by
  by_cases he : e = .integrityError
  · subst he
    rw [recover_race, settleRace] at h
    cases hread : (uow.repository.getByIdentity request.identity).exec
        (if uow.repository.transaction then before else failed) with
    | mk found result =>
      rw [hread] at h
      cases result with
      | error e => cases h
      | ok existing =>
        cases existing with
        | none => cases h
        | some existing =>
          dsimp only at h
          split at h
          · rename_i hhash
            cases h
            exact ⟨rfl, rfl, hhash⟩
          · cases h
  · rw [recover_of_ne createdRun before failed he] at h
    cases h

/-- A call returns the run it found, the one it built, or the one that won a race. -/
theorem publish_returned {s s' : S} {run : ContentPublicationRun} (h : uow.publish hashes request s = (s', .ok run)) :
    ∃ first, ContentPublicationRun.create hashes request.identity = .ok first ∧
      ((uow.existingRun hashes request).exec s = (s', .ok (some run)) ∨
        (∃ found, (uow.existingRun hashes request).exec s = (found, .ok none) ∧
          (uow.createRun hashes request first).exec found = (s', .ok run)) ∨
        ∃ createdRun failed e, uow.recover hashes request createdRun s failed e = (s', .ok run) ∧
          ((uow.existingRun hashes request).exec s = (failed, .error e) ∨
            ∃ found, (uow.existingRun hashes request).exec s = (found, .ok none))) := by
  rw [publish] at h
  cases hcreate : ContentPublicationRun.create hashes request.identity with
  | error e =>
    rw [hcreate] at h
    cases h
  | ok first =>
    rw [hcreate] at h
    dsimp only at h
    refine ⟨first, rfl, ?_⟩
    cases hexisting : (uow.existingRun hashes request).exec s with
    | mk found result =>
      rw [hexisting] at h
      cases result with
      | error e => exact .inr (.inr ⟨false, found, e, h, .inl rfl⟩)
      | ok existing =>
        cases existing with
        | some existing =>
          cases h
          exact .inl rfl
        | none =>
          dsimp only at h
          cases hcreated : (uow.createRun hashes request first).exec found with
          | mk failed result =>
            rw [hcreated] at h
            cases result with
            | error e => exact .inr (.inr ⟨true, failed, e, h, .inr ⟨found, rfl⟩⟩)
            | ok run' =>
              cases h
              exact .inr (.inl ⟨found, rfl, hcreated⟩)

end Recover

section Sql
variable {R : Type} {texts : Signals.OutboxTexts} {now : Time} {uow : PublicationUnitOfWork (PublicationDb R)}

theorem settleRace_sql (hsql : uow.repository = sqlRepository hashes texts now) (db : PublicationDb R) :
    RaisesWith (· = db) (uow.settleRace hashes request db) := by
  have hread : (uow.repository.getByIdentity request.identity).exec db =
      (db, getByIdentity hashes request.identity db.runs) := by
    rw [hsql]
    rfl
  rw [settleRace, hread]
  cases getByIdentity hashes request.identity db.runs with
  | error e => rfl
  | ok existing =>
    cases existing with
    | none => rfl
    | some existing =>
      dsimp only
      split
      · trivial
      · rfl

theorem recover_sql (hsql : uow.repository = sqlRepository hashes texts now) (createdRun : Bool)
    (before failed : PublicationDb R)
    (e : PublicationError) : RaisesWith (· = before) (uow.recover hashes request createdRun before failed e) := by
  have htransaction : uow.repository.transaction = true := by rw [hsql]; rfl
  by_cases he : e = .integrityError
  · subst he
    rw [recover_race, htransaction]
    exact settleRace_sql hsql before
  · rw [recover_of_ne createdRun before failed he, htransaction, hsql]
    exact ite_self before

/-- Whatever raises and wherever it strikes, a transaction leaves every table as it was. -/
theorem sql_publish_atomic (hsql : uow.repository = sqlRepository hashes texts now) (db : PublicationDb R) :
    RaisesWith (· = db) (uow.publish hashes request db) := by
  rw [publish]
  cases ContentPublicationRun.create hashes request.identity with
  | error e => rfl
  | ok run =>
    dsimp only
    split
    · trivial
    · exact recover_sql hsql false db _ _
    · split
      · trivial
      · exact recover_sql hsql true db _ _

end Sql

section InMemory
variable {G R : Type} {snapshotWriter : Option (PublishRequest → Procedure R PublicationError Unit)}
  {signalWriter : Option (List Payload → String → Procedure G PublicationError Unit)}
  {outboxWriter : Option (List Payload → Procedure R PublicationError Unit)}

/-- The runs of `db` are those of `before`, but for one unfinished run under the identity. -/
structure Staged (identity : PublicationIdentity) (before db : InMemoryDb G R) : Prop where
  others : (db.runs.keep fun entry => entry.1 ≠ identity) = before.runs
  unfinished : db.runs = before.runs ∨ ∃ run, db.runs.lookup identity = some run ∧ run.manifestHash = none

/-- A run that is being published: it has the identity asked for and no hash yet. -/
def Unhashed (identity : PublicationIdentity) (run : ContentPublicationRun) : Prop :=
  run.identity = identity ∧ run.manifestHash = none

variable {identity : PublicationIdentity} {before : InMemoryDb G R}

theorem Staged.save {db : InMemoryDb G R} (h : Staged identity before db) {run : ContentPublicationRun}
    (hrun : Unhashed identity run) : Staged identity before { db with runs := db.runs.set run.identity run } := by
  obtain ⟨rfl, hhash⟩ := hrun
  refine ⟨(Table.keep_put db.runs (run.identity, run)).trans h.others, .inr ⟨run, ?_, hhash⟩⟩
  rw [Dict.lookup_set, if_pos rfl]

theorem Staged.rest {db : InMemoryDb G R} (h : Staged identity before db) (signals : G) (rest : R) :
    Staged identity before { db with signals, rest } := ⟨h.others, h.unfinished⟩

/-- A step that writes no run. -/
def Quiet {A : Type} (identity : PublicationIdentity) (before : InMemoryDb G R)
    (x : Procedure (InMemoryDb G R) PublicationError A) : Prop :=
  Triple (Staged identity before) x (fun _ => Staged identity before) (fun _ => Staged identity before)

theorem quiet_attempt {A : Type} (x : Except PublicationError A) : Quiet identity before (attempt x) :=
  Triple.attempt (fun _ _ _ h => h) (fun _ _ _ h => h)

theorem quiet_onSignals {A : Type} (x : Procedure G PublicationError A) : Quiet identity before (onSignals x) := by
  refine Triple.step fun db h => ?_
  cases (x.exec db.signals).2 <;> exact h.rest _ _

theorem quiet_onOther {A : Type} (x : Procedure R PublicationError A) : Quiet identity before (onOther x) := by
  refine Triple.step fun db h => ?_
  cases (x.exec db.rest).2 <;> exact h.rest _ _

/-- A writer of another store, where there is one. -/
theorem quiet_writer {A B : Type} {writer : Option A} {wrap : A → B}
    {call : B → Procedure (InMemoryDb G R) PublicationError Unit} (h : ∀ write, Quiet identity before (call (wrap write))) :
    Quiet identity before (optional ((writer.map wrap).map call)) := by
  cases writer with
  | none => exact Triple.pure fun _ h => h
  | some write => exact h write

/-- A state on the way is stored without a hash. -/
theorem saveState_staged {uow : PublicationUnitOfWork (InMemoryDb G R)} (huow : uow.repository = inMemoryRepository)
    {run : ContentPublicationRun} (hrun : Unhashed identity run) (target : PublicationState) :
    Triple (Staged identity before) (uow.saveState request run target none)
      (fun run' db => Unhashed identity run' ∧ Staged identity before db) (fun _ => Staged identity before) := by
  refine Triple.bind (Q := fun updated db => Unhashed identity updated ∧ Staged identity before db) ?_ fun updated => ?_
  · refine Triple.attempt (fun updated hok db h => ⟨?_, h⟩) fun _ _ _ h => h
    obtain ⟨_, _, rfl⟩ := ContentPublicationRun.transition_ok.mp hok
    exact hrun
  · refine Triple.fact fun hupdated => ?_
    refine Triple.bind (Q := fun _ => Staged identity before) (quiet_attempt _) fun _ => ?_
    rw [huow]
    refine Triple.bind (Q := fun _ => Staged identity before) (Triple.step fun db h => h.save hupdated) fun _ => ?_
    exact Triple.pure fun db h => ⟨hupdated, h⟩

/-- The last state raises before it is stored, or not at all. -/
theorem saveState_last {uow : PublicationUnitOfWork (InMemoryDb G R)} (huow : uow.repository = inMemoryRepository)
    (run : ContentPublicationRun) (hash : Option String) :
    Triple (Staged identity before) (uow.saveState request run .ready hash) (fun _ _ => True) (fun _ => Staged identity before) := by
  refine Triple.bind (Q := fun _ => Staged identity before) (quiet_attempt _) fun updated => ?_
  refine Triple.bind (Q := fun _ => Staged identity before) (quiet_attempt _) fun _ => ?_
  rw [huow]
  refine Triple.bind (Q := fun _ _ => True) (Triple.step fun db h => trivial) fun _ => ?_
  exact Triple.pure fun db _ => trivial

variable (hashes request snapshotWriter signalWriter outboxWriter) in
/-- Wherever a publication raises, the runs are those of before but for its own. -/
theorem createRun_staged {run : ContentPublicationRun} (hrun : Unhashed identity run) :
    Triple (Staged identity before)
      ((inMemoryUnitOfWork snapshotWriter signalWriter outboxWriter).createRun hashes request run)
      (fun _ _ => True) (fun _ => Staged identity before) := by
  refine Triple.bind (saveState_staged rfl hrun .projecting) fun run' => Triple.fact fun hrun' => ?_
  refine Triple.bind (Q := fun _ => Staged identity before) (quiet_writer fun _ => quiet_onOther _) fun _ => ?_
  refine Triple.bind (Q := fun _ => Staged identity before) (Triple.pure fun _ h => h) fun _ => ?_
  refine Triple.bind (Q := fun _ => Staged identity before) (quiet_attempt _) fun _ => ?_
  refine Triple.bind (saveState_staged rfl hrun' .sealing) fun run'' => Triple.fact fun _ => ?_
  refine Triple.bind (Q := fun _ => Staged identity before) (quiet_writer fun _ => quiet_onSignals _) fun _ => ?_
  refine Triple.bind (Q := fun _ => Staged identity before) (quiet_attempt _) fun _ => ?_
  refine Triple.bind (Q := fun _ => Staged identity before) (quiet_writer fun _ => quiet_onOther _) fun _ => ?_
  refine Triple.bind (Q := fun _ => Staged identity before) (quiet_attempt _) fun _ => ?_
  exact saveState_last rfl run'' _

variable (hashes request snapshotWriter signalWriter outboxWriter) in
/-- Looking for the run changes nothing; it is refused for its payload only. -/
theorem existingRun_inMemory (s : InMemoryDb G R) : Triple (· = s)
    ((inMemoryUnitOfWork snapshotWriter signalWriter outboxWriter).existingRun hashes request)
    (fun existing db => db = s ∧ (existing = none ↔ s.runs.lookup request.identity = none))
    (fun e db => db = s ∧ e.ordinary = true ∧ s.runs.lookup request.identity ≠ none) := by
  refine Triple.bind (Q := fun existing db => db = s ∧ existing = s.runs.lookup request.identity) ?_ fun existing => ?_
  · exact Triple.step fun db h => ⟨h, by rw [h]⟩
  · cases existing with
    | none => exact Triple.pure fun db h => ⟨h.1, iff_of_true rfl h.2.symm⟩
    | some run =>
      refine Triple.bind (Q := fun _ db => db = s ∧ some run = s.runs.lookup request.identity) ?_ fun _ => ?_
      · refine Triple.attempt (fun _ _ db h => h) fun e he db h => ⟨h.1, ?_, by rw [← h.2]; nofun⟩
        rw [require] at he
        split at he <;> cases he
        rfl
      · refine Triple.bind (Q := fun _ db => db = s ∧ some run = s.runs.lookup request.identity) (Triple.pure fun _ h => h)
          fun _ => ?_
        exact Triple.pure fun db h => ⟨h.1, iff_of_false nofun (by rw [← h.2]; nofun)⟩

/-- At the step that raises, the signal store is as it was before the call, and either the
run is not stored yet or what is raised is an ordinary exception. -/
def RaisesUndoable (uow : PublicationUnitOfWork (InMemoryDb G R)) (hashes : PublicationHashes) (request : PublishRequest)
    (s : InMemoryDb G R) : Prop :=
  ∀ run failed e, ContentPublicationRun.create hashes request.identity = .ok run → s.runs.lookup request.identity = none →
    (uow.createRun hashes request run).exec s = (failed, .error e) →
      failed.signals = s.signals ∧ (failed.runs = s.runs ∨ e.ordinary = true)

/-- The stores are those of before. -/
def StoresKept (before after : InMemoryDb G R) : Prop := after.runs = before.runs ∧ after.signals = before.signals

/-- What the handlers make of a raise on the way. -/
theorem recover_kept_iff {uow : PublicationUnitOfWork (InMemoryDb G R)} (huow : uow.repository = inMemoryRepository)
    {failed : InMemoryDb G R} {e : PublicationError} (hfree : before.runs.lookup request.identity = none)
    (h : Staged request.identity before failed) :
    RaisesWith (StoresKept before) (uow.recover hashes request true before failed e) ↔
      failed.signals = before.signals ∧ (failed.runs = before.runs ∨ e.ordinary = true) := by
  have htransaction : uow.repository.transaction = false := by rw [huow]; rfl
  by_cases he : e = .integrityError
  · subst he
    have hread : (uow.repository.getByIdentity request.identity).exec failed =
        (failed, .ok (failed.runs.lookup request.identity)) := by
      rw [huow]
      rfl
    rw [recover_race, htransaction, if_neg Bool.false_ne_true, settleRace, hread]
    rcases h.unfinished with hsame | ⟨run, hrun, hhash⟩
    · rw [hsame, hfree]
      change StoresKept before failed ↔ _
      rw [StoresKept, hsame]
      simp
    · -- The unfinished run has no hash, so it passes for another publisher's.
      have hne : failed.runs ≠ before.runs := by
        intro hsame
        rw [hsame, hfree] at hrun
        cases hrun
      rw [hrun]
      dsimp only
      rw [if_neg (by rw [hhash]; nofun)]
      change StoresKept before failed ↔ _
      refine iff_of_false (fun hkept => hne hkept.1) fun hcond => ?_
      exact hcond.2.elim hne Bool.false_ne_true
  · rw [recover_of_ne true before failed he, htransaction, if_neg Bool.false_ne_true, huow]
    change StoresKept before (if (e.ordinary && true) = true then inMemoryRepository.forget request.identity failed else failed) ↔ _
    rw [Bool.and_true]
    cases hordinary : e.ordinary with
    | true =>
      rw [if_pos rfl]
      change (failed.runs.keep fun entry => entry.1 ≠ request.identity) = before.runs ∧ failed.signals = before.signals ↔ _
      rw [h.others]
      simp
    | false =>
      rw [if_neg Bool.false_ne_true, StoresKept, and_comm]
      simp

/-- In memory, the stores are as before exactly when every raise can be undone. -/
theorem inMemory_publish_atomic_iff (s : InMemoryDb G R) :
    RaisesWith (StoresKept s) ((inMemoryUnitOfWork snapshotWriter signalWriter outboxWriter).publish hashes request s) ↔
      RaisesUndoable (inMemoryUnitOfWork snapshotWriter signalWriter outboxWriter) hashes request s := by
  rw [publish, RaisesUndoable]
  cases hcreate : ContentPublicationRun.create hashes request.identity with
  | error e => exact iff_of_true ⟨rfl, rfl⟩ nofun
  | ok run =>
    dsimp only
    have hexisting := existingRun_inMemory hashes request snapshotWriter signalWriter outboxWriter s s rfl
    generalize ((inMemoryUnitOfWork snapshotWriter signalWriter outboxWriter).existingRun hashes request).exec s =
      found at hexisting
    obtain ⟨s', existing | existing⟩ := found
    · obtain ⟨rfl, hordinary, htaken⟩ := hexisting
      have he : existing ≠ .integrityError := by
        rintro rfl
        cases hordinary
      dsimp only
      rw [recover_of_ne false s' s' he, Bool.and_false, if_neg Bool.false_ne_true]
      exact iff_of_true ⟨rfl, rfl⟩ fun _ _ _ _ hfree => absurd hfree htaken
    · obtain ⟨rfl, hfree⟩ := hexisting
      cases existing with
      | some run' => exact iff_of_true trivial fun _ _ _ _ h => by cases hfree.mpr h
      | none =>
        have hnone := hfree.mp rfl
        have hstart : Staged request.identity s' s' := ⟨Table.keep_free s'.runs (Option.map_eq_none_iff.mp hnone), .inl rfl⟩
        have hunhashed : Unhashed request.identity run := by
          obtain ⟨hidentity, _, hhash, _⟩ := ContentPublicationRun.create_ok hcreate
          exact ⟨hidentity, hhash⟩
        have hstaged := createRun_staged hashes request snapshotWriter signalWriter outboxWriter hunhashed s' hstart
        dsimp only
        cases hcreated : ((inMemoryUnitOfWork snapshotWriter signalWriter outboxWriter).createRun hashes request run).exec s' with
        | mk failed result =>
          rw [hcreated] at hstaged
          cases result with
          | ok run' =>
            refine iff_of_true trivial fun run'' failed' e hrun'' _ herror => ?_
            cases hrun''
            rw [hcreated] at herror
            cases herror
          | error e =>
            dsimp only
            rw [recover_kept_iff rfl hnone hstaged]
            constructor
            · intro hundone run'' failed' e' hrun'' _ herror
              cases hrun''
              rw [hcreated] at herror
              cases herror
              exact hundone
            · exact fun h => h run failed e rfl hnone hcreated

end InMemory

/-- Publication is atomic under a transaction of its own, whatever raises. In memory it is
atomic exactly when, at the step that raises, the signal store is untouched and the run is
not stored yet or what is raised is an ordinary exception. -/
theorem publication_atomic_iff {G R : Type} (hashes : PublicationHashes) (request : PublishRequest) :
    (∀ (texts : Signals.OutboxTexts) (now : Time) snapshotWriter signalWriter outboxWriter (db : PublicationDb R),
      RaisesWith (· = db)
        (publish ⟨sqlRepository hashes texts now, snapshotWriter, signalWriter, outboxWriter⟩ hashes request db)) ∧
    ∀ snapshotWriter signalWriter outboxWriter (s : InMemoryDb G R),
      RaisesWith (StoresKept s) ((inMemoryUnitOfWork snapshotWriter signalWriter outboxWriter).publish hashes request s) ↔
        RaisesUndoable (inMemoryUnitOfWork snapshotWriter signalWriter outboxWriter) hashes request s := by
  constructor
  · intro texts now snapshotWriter signalWriter outboxWriter db
    have hsql : (⟨sqlRepository hashes texts now, snapshotWriter, signalWriter, outboxWriter⟩ :
        PublicationUnitOfWork (PublicationDb R)).repository = sqlRepository hashes texts now := rfl
    exact sql_publish_atomic hsql db
  · intro snapshotWriter signalWriter outboxWriter s
    exact inMemory_publish_atomic_iff s

theorem raisesWith_iff {S A : Type} {kept : S → Prop} {outcome : S × Except PublicationError A} :
    RaisesWith kept outcome ↔ (outcome.2.toBool = true ∨ kept outcome.1) := by
  obtain ⟨s, result | result⟩ := outcome
  · exact (or_iff_right Bool.false_ne_true).symm
  · exact iff_of_true trivial (.inl rfl)

/-- The failure hook meets a lost race for a unique key. -/
def racedRequest : PublishRequest where
  identity := ⟨"snap-1", "q", "p"⟩
  manifest := []
  signals := []
  failureHook point := if point = "snapshot" then .error .integrityError else .ok ()

def noStores : InMemoryDb Unit Unit := ⟨.empty, (), ()⟩

/-- The unfinished run stays. -/
theorem integrity_error_leaves_run : ¬ RaisesWith (StoresKept noStores)
    ((inMemoryUnitOfWork none none none).publish snapshotHashes racedRequest noStores) := by
  rw [raisesWith_iff]
  rintro (hreturned | ⟨hruns, _⟩)
  · exact absurd hreturned (by with_unfolding_all decide)
  · have hlookup := congrArg (fun runs => (runs.lookup racedRequest.identity).isSome) hruns
    exact absurd hlookup (by with_unfolding_all decide)

end StockContent.Publication
