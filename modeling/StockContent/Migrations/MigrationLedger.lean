import Mathlib.Data.List.DropRight
import Mathlib.Data.String.Basic
import StockContent.Storage.ByKey
import StockContent.Storage.Dict
import StockContent.Storage.Machine

/-! The numbered migrations of a release are run once each, in their order, and recorded with their checksums. -/
namespace StockContent.Migrations
open Storage

structure Migration where
  migrationId : String
  checksum : String
  sql : String

inductive MigrationError
  | notPackaged
  | authorityNotPackaged (missing : List String)
  | missingGuards (missing : List String)
  | checksumMismatch (migrationId : String)
  | duplicateKeys (migrationId : String)
  | uniqueViolation (migrationId : String)
  | ledgerMissing
  | ledgerWrong (missing unexpected wrong : List String)
  | database (message : String)

/-- The digest of a file, the tables that the release maps, and the server: what it has, and what a script makes of it. -/
structure MigrationEngine (S : Type) where
  digest : String → String
  mappedTables : List String
  tableNames : S → List String
  createAll : S → Except String S
  execute : String → S → Except String S
  /-- Rows that a unique index of the script would refuse. -/
  legacyDuplicates : Migration → S → Bool
  /-- What the probe of the catalog does not find as it should be. -/
  missingGuards : S → List String

/-- Everything that a script may change, and the ledger table once it is there. -/
structure MigrationDatabase (S : Type) where
  schema : S
  ledger : Option (Dict String String) := none

def MigrationDatabase.recorded {S : Type} (db : MigrationDatabase S) : Dict String String := db.ledger.getD Table.empty

def baselineSqlAuthorityMigrations : List String :=
  ["024_final_claim_evidence_ownership", "026_claim_state_events_publication"]

/-- `[0-9][0-9][0-9]_*.sql`. -/
def isNumbered (name : String) : Bool :=
  match name.toList with
  | a :: b :: c :: '_' :: rest => a.isDigit && b.isDigit && c.isDigit && decide (".sql".toList <:+ rest)
  | _ => false

def stem (name : String) : String := String.ofList (name.toList.rdrop 4)

section Apply
variable {S : Type} (engine : MigrationEngine S)

def migrationOf (file : String × String) : Migration := ⟨stem file.1, engine.digest file.2, file.2⟩

/-- The files of the directory by their names, with their contents. -/
def expectedMigrations (directory : Dict String String) : Except MigrationError (List Migration) :=
  let files := sortedBy Prod.fst (directory.rows.filter fun file => isNumbered file.1)
  if files.isEmpty then .error .notPackaged else .ok (files.map (migrationOf engine))

def execute (sql : String) (schema : S) : Except MigrationError S := (engine.execute sql schema).mapError .database

/-- The mapped tables, the scripts whose effects no mapping has, and the probe of these. -/
def establishCurrentBaseline (migrations : List Migration) (schema : S) : Except MigrationError S := do
  let created ← (engine.createAll schema).mapError .database
  let missing := baselineSqlAuthorityMigrations.filter fun script => script ∉ migrations.map Migration.migrationId
  require (.authorityNotPackaged missing) missing.isEmpty
  let authority := migrations.filter fun migration => migration.migrationId ∈ baselineSqlAuthorityMigrations
  let installed ← authority.foldlM (fun schema migration => execute engine migration.sql schema) created
  require (.missingGuards (engine.missingGuards installed)) (engine.missingGuards installed).isEmpty
  return installed

def runScript (baseline : Bool) (migration : Migration) (schema : S) : Except MigrationError S :=
  if baseline then .ok schema
  else if engine.legacyDuplicates migration schema then .error (.duplicateKeys migration.migrationId)
  else execute engine migration.sql schema

structure Progress (S : Type) where
  schema : S
  ledger : Dict String String
  applied : List String

def row (migration : Migration) : String × String := (migration.migrationId, migration.checksum)

def recordOne (progress : Progress S) (migration : Migration) (schema : S) : Except MigrationError (Progress S) :=
  match progress.ledger.insert (row migration) with
  | none => .error (.uniqueViolation migration.migrationId)
  | some ledger => .ok ⟨schema, ledger, progress.applied ++ [migration.migrationId]⟩

/-- What was recorded before the call is skipped, if its checksum is the same. -/
def applyOne (baseline : Bool) (recorded : Dict String String) (progress : Progress S) (migration : Migration) :
    Except MigrationError (Progress S) :=
  match recorded.lookup migration.migrationId with
  | some actual =>
    if actual = migration.checksum then .ok progress else .error (.checksumMismatch migration.migrationId)
  | none => runScript engine baseline migration progress.schema >>= recordOne progress migration

def applyAll (baseline : Bool) (recorded : Dict String String) (migrations : List Migration) (progress : Progress S) :
    Except MigrationError (Progress S) :=
  migrations.foldlM (applyOne engine baseline recorded) progress

/-- A database that has one of the mapped tables is upgraded, any other gets the current baseline. -/
def isMapped (schema : S) : Bool := (engine.tableNames schema).any engine.mappedTables.contains

def prepareSchema (baseline : Bool) (migrations : List Migration) (schema : S) : Except MigrationError S :=
  if baseline then establishCurrentBaseline engine migrations schema else .ok schema

def applyRelease (migrations : List Migration) (db : MigrationDatabase S) :
    Except MigrationError (MigrationDatabase S × List String) := do
  let baseline := !isMapped engine db.schema
  let schema ← prepareSchema engine baseline migrations db.schema
  let progress ← applyAll engine baseline db.recorded migrations ⟨schema, db.recorded, []⟩
  return (⟨progress.schema, some progress.ledger⟩, progress.applied)

def applyMigrations (directory : Dict String String) (db : MigrationDatabase S) :
    Except MigrationError (MigrationDatabase S × List String) := do
  let migrations ← expectedMigrations engine directory
  applyRelease engine migrations db

/-- One transaction under an advisory lock. -/
def machine : Machine (MigrationDatabase S) (Dict String String) (Except MigrationError (List String)) where
  exec db directory := settle db (applyMigrations engine directory db)

def sortedTexts (texts : List String) : List String := sortedBy id texts

def verifyMigrationLedger (directory : Dict String String) (db : MigrationDatabase S) : Except MigrationError Unit :=
  match db.ledger with
  | none => .error .ledgerMissing
  | some recorded => do
    require (.missingGuards (engine.missingGuards db.schema)) (engine.missingGuards db.schema).isEmpty
    let migrations ← expectedMigrations engine directory
    let expected := migrations.map Migration.migrationId
    let missing := sortedTexts (expected.filter fun migrationId => recorded.lookup migrationId = none)
    let unexpected := sortedTexts ((recorded.rows.map Prod.fst).filter fun migrationId => migrationId ∉ expected)
    let wrong := sortedTexts ((migrations.filter fun migration =>
      (recorded.lookup migration.migrationId).any fun checksum => checksum ≠ migration.checksum).map
        Migration.migrationId)
    require (.ledgerWrong missing unexpected wrong) (missing.isEmpty && unexpected.isEmpty && wrong.isEmpty)

end Apply

section Expected
variable {S : Type} {engine : MigrationEngine S} {directory : Dict String String} {migrations : List Migration}

theorem stem_append {name : String} (h : isNumbered name = true) : (stem name).toList ++ ".sql".toList = name.toList := by
  have hsuffix : ".sql".toList <:+ name.toList := by
    rw [isNumbered] at h
    split at h
    · rename_i a b c rest hname
      rw [Bool.and_eq_true] at h
      rw [hname]
      exact (of_decide_eq_true h.2).trans ⟨[a, b, c, '_'], rfl⟩
    · cases h
  obtain ⟨start, hstart⟩ := hsuffix
  have hlength : start.length + ".sql".toList.length - 4 = start.length := Nat.add_sub_cancel _ _
  rw [stem, String.toList_ofList, ← hstart, List.rdrop, List.length_append, hlength, List.take_left']
  rfl

/-- Files of different names are different migrations. -/
theorem expectedMigrations_nodup (h : expectedMigrations engine directory = .ok migrations) :
    (migrations.map Migration.migrationId).Nodup := by
  simp only [expectedMigrations] at h
  split at h
  · cases h
  · cases h
    have hnames : ((sortedBy Prod.fst (directory.rows.filter fun file => isNumbered file.1)).map Prod.fst).Nodup := by
      rw [((perm_sortedBy Prod.fst _).map Prod.fst).nodup_iff]
      exact directory.unique.sublist (List.filter_sublist.map Prod.fst)
    rw [List.map_map]
    refine List.Nodup.map_on ?_ hnames.of_map
    intro file hfile other hother heq
    have hnumbered {file : String × String} (hfile : file ∈
        sortedBy Prod.fst (directory.rows.filter fun file => isNumbered file.1)) :
        isNumbered file.1 = true := (List.mem_filter.mp (mem_sortedBy.mp hfile)).2
    have hstem : stem file.1 = stem other.1 := heq
    have hname : file.1 = other.1 := by
      rw [← String.toList_inj, ← stem_append (hnumbered hfile), ← stem_append (hnumbered hother), hstem]
    exact List.inj_on_of_nodup_map hnames hfile hother hname

end Expected

section Applied
variable {S : Type} {engine : MigrationEngine S} {baseline : Bool} {recorded : Dict String String}
  {migrations : List Migration} {migration : Migration} {start progress next : Progress S}

theorem applyOne_eq_ok (h : applyOne engine baseline recorded progress migration = .ok next) :
    (recorded.lookup migration.migrationId = some migration.checksum ∧ next = progress) ∨
      (recorded.lookup migration.migrationId = none ∧ runScript engine baseline migration progress.schema =
        .ok next.schema ∧
        next.ledger.rows = progress.ledger.rows ++ [row migration] ∧
        next.applied = progress.applied ++ [migration.migrationId]) := by
  rw [applyOne] at h
  split at h
  · rename_i actual hactual
    split at h
    · rename_i hsame
      cases h
      exact .inl ⟨hsame ▸ hactual, rfl⟩
    · cases h
  · rename_i hfree
    obtain ⟨schema, hschema, h⟩ := bind_eq_ok.mp h
    rw [recordOne] at h
    split at h
    · cases h
    · rename_i ledger hledger
      cases h
      exact .inr ⟨hfree, hschema, (Table.insert_eq_some hledger).2, rfl⟩

/-- Some of the migrations, in their order, were run and recorded. The others had been before. -/
structure Applied (recorded : Dict String String) (migrations added : List Migration) (start progress : Progress S) :
    Prop where
  sublist : added.Sublist migrations
  ledger : progress.ledger.rows = start.ledger.rows ++ added.map row
  applied : progress.applied = start.applied ++ added.map Migration.migrationId
  free : ∀ migration ∈ added, recorded.lookup migration.migrationId = none
  known : ∀ migration ∈ migrations, migration ∈ added ∨ recorded.lookup migration.migrationId = some migration.checksum

theorem applyAll_applied (h : applyAll engine baseline recorded migrations start = .ok progress) :
    ∃ added, Applied recorded migrations added start progress := by
  induction migrations generalizing start with
  | nil =>
    cases h
    exact ⟨[], List.Sublist.refl [], (List.append_nil _).symm, (List.append_nil _).symm, nofun, nofun⟩
  | cons migration migrations ih =>
    rw [applyAll, List.foldlM_cons] at h
    obtain ⟨next, hnext, h⟩ := bind_eq_ok.mp h
    obtain ⟨added, hadded⟩ := ih h
    rcases applyOne_eq_ok hnext with ⟨hknown, rfl⟩ | ⟨hfree, -, hledger, happlied⟩
    · exact ⟨added, hadded.sublist.cons migration, hadded.ledger, hadded.applied, hadded.free,
        List.forall_mem_cons.mpr ⟨.inr hknown, hadded.known⟩⟩
    · refine ⟨migration :: added, hadded.sublist.cons_cons migration, ?_, ?_,
        List.forall_mem_cons.mpr ⟨hfree, hadded.free⟩, ?_⟩
      · rw [hadded.ledger, hledger, List.append_assoc, List.singleton_append, List.map_cons]
      · rw [hadded.applied, happlied, List.append_assoc, List.singleton_append, List.map_cons]
      · refine List.forall_mem_cons.mpr ⟨.inl List.mem_cons_self, fun other hother => ?_⟩
        exact (hadded.known other hother).imp_left (List.mem_cons_of_mem migration)

theorem Applied.lookup {added : List Migration} (h : Applied recorded migrations added start progress)
    (hstart : start.ledger = recorded) (hmem : migration ∈ migrations) :
    progress.ledger.lookup migration.migrationId = some migration.checksum := by
  rw [Dict.lookup_eq_some, h.ledger]
  rcases h.known migration hmem with hadded | hknown
  · exact List.mem_append_right _ (List.mem_map_of_mem hadded)
  · rw [← hstart] at hknown
    exact List.mem_append_left _ (Dict.lookup_eq_some.mp hknown)

/-- What is not of the release is recorded as before. -/
theorem Applied.lookup_other {added : List Migration} (h : Applied recorded migrations added start progress)
    {migrationId : String}
    (hother : migrationId ∉ migrations.map Migration.migrationId) :
    progress.ledger.lookup migrationId = start.ledger.lookup migrationId := by
  refine Option.ext fun checksum => ?_
  rw [Dict.lookup_eq_some, Dict.lookup_eq_some, h.ledger, List.mem_append, or_iff_left]
  intro hmem
  obtain ⟨migration, hmigration, heq⟩ := List.mem_map.mp hmem
  have hid : migration.migrationId = migrationId := congrArg Prod.fst heq
  exact hother (hid ▸ List.mem_map_of_mem (h.sublist.subset hmigration))

theorem applyRelease_eq_ok {db next : MigrationDatabase S} {ids : List String}
    (h : applyRelease engine migrations db = .ok (next, ids)) : ∃ added schema progress,
      prepareSchema engine (!isMapped engine db.schema) migrations db.schema = .ok schema ∧
      applyAll engine (!isMapped engine db.schema) db.recorded migrations ⟨schema, db.recorded, []⟩ = .ok progress ∧
      Applied db.recorded migrations added ⟨schema, db.recorded, []⟩ progress ∧
      next = ⟨progress.schema, some progress.ledger⟩ ∧ ids = progress.applied := by
  obtain ⟨schema, hschema, h⟩ := bind_eq_ok.mp h
  obtain ⟨progress, hprogress, h⟩ := bind_eq_ok.mp h
  obtain ⟨added, hadded⟩ := applyAll_applied hprogress
  cases h
  exact ⟨added, schema, progress, hschema, hprogress, hadded, rfl, rfl⟩

end Applied

section History
variable {S : Type} {engine : MigrationEngine S} {db next : MigrationDatabase S} {directory : Dict String String}

def returned : Except MigrationError (List String) → List String
  | .ok ids => ids
  | .error _ => []

/-- The migrations that the calls of a run returned, oldest first. -/
def appliedIds (history : List (Dict String String × Except MigrationError (List String))) : List String :=
  history.flatMap fun entry => returned entry.2

theorem applyMigrations_eq_ok {ids : List String} (h : applyMigrations engine directory db = .ok (next, ids)) :
    ∃ migrations added : List Migration, expectedMigrations engine directory = .ok migrations ∧ added ⊆ migrations ∧
      next.recorded.rows = db.recorded.rows ++ added.map row ∧ ids = added.map Migration.migrationId := by
  obtain ⟨migrations, hexpected, h⟩ := bind_eq_ok.mp h
  obtain ⟨added, schema, progress, -, -, hadded, rfl, rfl⟩ := applyRelease_eq_ok h
  exact ⟨migrations, added, hexpected, hadded.sublist.subset, hadded.ledger, hadded.applied⟩

theorem mem_expectedMigrations {migrations : List Migration} {migration : Migration}
    (h : expectedMigrations engine directory = .ok migrations) (hmem : migration ∈ migrations) :
    ∃ file, (file ∈ directory.rows ∧ isNumbered file.1 = true) ∧ migration = migrationOf engine file := by
  simp only [expectedMigrations] at h
  split at h
  · cases h
  · cases h
    obtain ⟨file, hfile, rfl⟩ := List.mem_map.mp hmem
    exact ⟨file, List.mem_filter.mp (mem_sortedBy.mp hfile), rfl⟩

theorem migrationOf_mem {migrations : List Migration} {file : String × String}
    (h : expectedMigrations engine directory = .ok migrations) (hfile : file ∈ directory.rows)
    (hnumbered : isNumbered file.1 = true) : migrationOf engine file ∈ migrations := by
  simp only [expectedMigrations] at h
  split at h
  · cases h
  · cases h
    exact List.mem_map_of_mem (mem_sortedBy.mpr (List.mem_filter.mpr ⟨hfile, hnumbered⟩))

/-- What the ledger has after a run: what it had, and the migrations of the calls that returned, each once, with the
checksums of the files that were run. -/
structure LedgerHistory (engine : MigrationEngine S) (db : MigrationDatabase S)
    (directories : List (Dict String String)) :
    Prop where
  kept : db.recorded.rows <+: ((machine engine).run db directories).recorded.rows
  ids : ((machine engine).run db directories).recorded.rows.map Prod.fst =
    db.recorded.rows.map Prod.fst ++ appliedIds ((machine engine).history db directories)
  once : (appliedIds ((machine engine).history db directories)).Nodup
  checksums : ∀ entry ∈ (machine engine).history db directories, ∀ migrationId ∈ returned entry.2,
    ∃ file ∈ entry.1.rows, stem file.1 = migrationId ∧
      ((machine engine).run db directories).recorded.lookup migrationId = some (engine.digest file.2)

/-- What holds of the ledger after some calls, against the one before. -/
structure Ledgered (engine : MigrationEngine S) (db next : MigrationDatabase S)
    (history : List (Dict String String × Except MigrationError (List String))) : Prop where
  rows : ∃ added : List Migration, next.recorded.rows = db.recorded.rows ++ added.map row ∧
    appliedIds history = added.map Migration.migrationId
  checksums : ∀ entry ∈ history, ∀ migrationId ∈ returned entry.2,
    ∃ file ∈ entry.1.rows, stem file.1 = migrationId ∧ (migrationId, engine.digest file.2) ∈ next.recorded.rows

theorem Ledgered.step {history : List (Dict String String × Except MigrationError (List String))}
    (h : Ledgered engine db next history) (directory : Dict String String) :
    Ledgered engine db ((machine engine).step next directory)
      (history ++ [(directory, (machine engine).outcome next directory)]) := by
  have hstep : (machine engine).exec next directory = settle next (applyMigrations engine directory next) := rfl
  have happend (outcome : Except MigrationError (List String)) :
      appliedIds (history ++ [(directory, outcome)]) = appliedIds history ++ returned outcome := by
    rw [appliedIds, List.flatMap_append, List.flatMap_singleton]
    rfl
  rw [Machine.step, Machine.outcome, hstep]
  cases hcall : applyMigrations engine directory next with
  | error e =>
    rw [settle_error]
    refine ⟨?_, ?_⟩
    · rw [happend, returned, List.append_nil]
      exact h.rows
    · exact List.forall_mem_append.mpr ⟨h.checksums, List.forall_mem_singleton.mpr nofun⟩
  | ok result =>
    obtain ⟨last, ids⟩ := result
    rw [settle_ok]
    obtain ⟨migrations, added, hexpected, hsubset, hrows, rfl⟩ := applyMigrations_eq_ok hcall
    obtain ⟨before, hbefore, hids⟩ := h.rows
    refine ⟨⟨before ++ added, ?_, ?_⟩, List.forall_mem_append.mpr ⟨?_, List.forall_mem_singleton.mpr ?_⟩⟩
    · rw [hrows, hbefore, List.map_append, List.append_assoc]
    · rw [happend, hids, List.map_append]
      rfl
    · intro entry hentry migrationId hid
      obtain ⟨file, hfile, hstem, hmem⟩ := h.checksums entry hentry migrationId hid
      exact ⟨file, hfile, hstem, hrows ▸ List.mem_append_left _ hmem⟩
    · intro migrationId hid
      obtain ⟨migration, hmigration, rfl⟩ := List.mem_map.mp hid
      obtain ⟨file, hfile, rfl⟩ := mem_expectedMigrations hexpected (hsubset hmigration)
      exact ⟨file, hfile.1, rfl, hrows ▸ List.mem_append_right _ (List.mem_map_of_mem hmigration)⟩

theorem ledgered_run (engine : MigrationEngine S) (db : MigrationDatabase S) (directories : List (Dict String String)) :
    Ledgered engine db ((machine engine).run db directories) ((machine engine).history db directories) := by
  refine (machine engine).history_invariant (J := Ledgered engine db)
    (fun _ _ directory h => h.step directory) ?_ directories
  exact ⟨⟨[], (List.append_nil _).symm, rfl⟩, nofun⟩

end History

section Verified
variable {S : Type} {engine : MigrationEngine S} {db next : MigrationDatabase S} {directory : Dict String String}
  {migrations : List Migration} {ids : List String}

theorem sortedTexts_eq_nil {texts : List String} : sortedTexts texts = [] ↔ texts = [] := by
  constructor
  · intro h
    have hperm : (sortedTexts texts).Perm texts := perm_sortedBy id texts
    rw [h] at hperm
    exact hperm.symm.eq_nil
  · rintro rfl
    rfl

/-- A ledger is accepted where the catalog has its guards and the release and the ledger are the same set, with the same
checksums. -/
theorem verifyMigrationLedger_eq_ok (hexpected : expectedMigrations engine directory = .ok migrations)
    {ledger : Dict String String} (hledger : db.ledger = some ledger) :
    verifyMigrationLedger engine directory db = .ok () ↔ engine.missingGuards db.schema = [] ∧
      (∀ migration ∈ migrations, ledger.lookup migration.migrationId = some migration.checksum) ∧
      ∀ migrationId ∈ ledger.rows.map Prod.fst, migrationId ∈ migrations.map Migration.migrationId := by
  rw [verifyMigrationLedger, hledger]
  simp only [hexpected, then_eq_ok, ok_bind, require_eq_ok, Bool.and_eq_true, List.isEmpty_iff, sortedTexts_eq_nil]
  simp only [List.filter_eq_nil_iff, List.map_eq_nil_iff, decide_eq_true_eq, not_not, List.forall_mem_map,
    Option.any_eq_true]
  refine and_congr_right fun _ => ⟨?_, ?_⟩
  · rintro ⟨⟨hmissing, hunexpected⟩, hwrong⟩
    refine ⟨fun migration hmigration => ?_, hunexpected⟩
    obtain ⟨checksum, hchecksum⟩ := Option.ne_none_iff_exists'.mp (hmissing migration hmigration)
    have hsame : checksum = migration.checksum := by
      by_contra hne
      exact hwrong migration hmigration ⟨checksum, hchecksum, hne⟩
    rw [hchecksum, hsame]
  · rintro ⟨hrecorded, hunexpected⟩
    refine ⟨⟨fun migration hmigration => ?_, hunexpected⟩, fun migration hmigration => ?_⟩
    · rw [hrecorded migration hmigration]
      exact Option.some_ne_none _
    · rintro ⟨checksum, hchecksum, hne⟩
      exact hne (Option.some.inj (hchecksum.symm.trans (hrecorded migration hmigration)))

theorem applyRelease_lookup (h : applyRelease engine migrations db = .ok (next, ids)) {migration : Migration}
    (hmem : migration ∈ migrations) : next.recorded.lookup migration.migrationId = some migration.checksum := by
  obtain ⟨added, schema, progress, -, -, hadded, rfl, rfl⟩ := applyRelease_eq_ok h
  exact hadded.lookup rfl hmem

/-- Migrations that are all recorded leave everything as it is. -/
theorem applyAll_recorded {baseline : Bool} {recorded : Dict String String} {progress : Progress S}
    (h : ∀ migration ∈ migrations, recorded.lookup migration.migrationId = some migration.checksum) :
    applyAll engine baseline recorded migrations progress = .ok progress := by
  induction migrations with
  | nil => rfl
  | cons migration migrations ih =>
    obtain ⟨hfirst, hrest⟩ := List.forall_mem_cons.mp h
    have hone : applyOne engine baseline recorded progress migration = .ok progress := by
      rw [applyOne, hfirst]
      exact if_pos rfl
    rw [applyAll, List.foldlM_cons, hone, ok_bind]
    exact ih hrest

/-- After a deployment of a release. -/
structure Deployed (engine : MigrationEngine S) (directory : Dict String String) (next : MigrationDatabase S) : Prop where
  /-- The start-up check accepts exactly where the guards are there and no other release had been deployed. -/
  verified : verifyMigrationLedger engine directory next = .ok () ↔ engine.missingGuards next.schema = [] ∧
    ∀ migrationId ∈ next.recorded.rows.map Prod.fst, ∃ file ∈ directory.rows, isNumbered file.1 = true ∧
      stem file.1 = migrationId
  again : isMapped engine next.schema = true → applyMigrations engine directory next = .ok (next, [])

theorem deployed (engine : MigrationEngine S) (directory : Dict String String) (db next : MigrationDatabase S)
    (ids : List String)
    (h : applyMigrations engine directory db = .ok (next, ids)) : Deployed engine directory next := by
  obtain ⟨migrations, hexpected, h⟩ := bind_eq_ok.mp h
  have hlookup := @applyRelease_lookup S engine db next migrations ids h
  obtain ⟨added, schema, progress, -, -, -, rfl, -⟩ := applyRelease_eq_ok h
  refine ⟨?_, fun hmapped => ?_⟩
  · rw [verifyMigrationLedger_eq_ok hexpected rfl]
    refine and_congr_right fun _ => ⟨fun hboth migrationId hid => ?_, fun hfiles => ⟨fun _ hmem => hlookup hmem, ?_⟩⟩
    · obtain ⟨migration, hmigration, rfl⟩ := List.mem_map.mp (hboth.2 migrationId hid)
      obtain ⟨file, hfile, rfl⟩ := mem_expectedMigrations hexpected hmigration
      exact ⟨file, hfile.1, hfile.2, rfl⟩
    · intro migrationId hid
      obtain ⟨file, hfile, hnumbered, rfl⟩ := hfiles migrationId hid
      exact List.mem_map_of_mem (migrationOf_mem hexpected hfile hnumbered)
  · rw [applyMigrations, hexpected, ok_bind, applyRelease, hmapped]
    simp only [Bool.not_true, prepareSchema, Bool.false_eq_true, if_false, ok_bind]
    rw [applyAll_recorded fun _ hmem => hlookup hmem]
    rfl

/-- A server whose schema is the scripts that it ran. -/
def recordingEngine : MigrationEngine (List String) where
  digest sql := sql
  mappedTables := ["claims"]
  tableNames _ := ["claims"]
  createAll schema := .ok schema
  execute sql schema := .ok (schema ++ [sql])
  legacyDuplicates _ _ := false
  missingGuards _ := []

def releaseDirectory : Dict String String := ⟨[("001_claims.sql", "CREATE"), ("002_events.sql", "ALTER")], by decide⟩

def releaseLedger : Dict String String := ⟨[("001_claims", "CREATE"), ("002_events", "ALTER")], by decide⟩

theorem deployed_release : Deployed recordingEngine releaseDirectory ⟨["CREATE", "ALTER"], some releaseLedger⟩ :=
  deployed recordingEngine releaseDirectory ⟨[], none⟩ _ _ rfl

end Verified

section Upgrade
variable {S : Type} {engine : MigrationEngine S} {db : MigrationDatabase S} {baseline : Bool}
  {recorded known : Dict String String} {older newer migrations : List Migration} {migration : Migration}
  {progress next : Progress S}

/-- No script takes a database back to where it would get the baseline. -/
def KeepsMapped (engine : MigrationEngine S) : Prop := ∀ sql schema next, engine.execute sql schema = .ok next →
  isMapped engine schema = true → isMapped engine next = true

/-- The releases of a history, each with the migrations of the one before and some more, deployed one after the other. -/
def deploy (engine : MigrationEngine S) :
    List Migration → List (List Migration) → MigrationDatabase S →
      Except MigrationError (MigrationDatabase S × List String)
  | release, [], db => applyRelease engine release db
  | release, added :: later, db => do
    let first ← applyRelease engine release db
    let last ← deploy engine (release ++ added) later first.1
    return (last.1, first.2 ++ last.2)

def afterwards (earlier : List String) (progress : Progress S) : Progress S :=
  { progress with applied := earlier ++ progress.applied }

theorem recordOne_afterwards (earlier : List String) (progress : Progress S) (migration : Migration) (schema : S) :
    recordOne (afterwards earlier progress) migration schema =
      (recordOne progress migration schema).map (afterwards earlier) := by
  simp only [recordOne, afterwards]
  cases progress.ledger.insert (row migration) with
  | none => rfl
  | some ledger => exact congrArg (fun applied => Except.ok (Progress.mk schema ledger applied)) (List.append_assoc _ _ _)

theorem applyOne_afterwards (earlier : List String) (progress : Progress S) (migration : Migration) :
    applyOne engine baseline recorded (afterwards earlier progress) migration =
      (applyOne engine baseline recorded progress migration).map (afterwards earlier) := by
  rw [applyOne, applyOne]
  cases recorded.lookup migration.migrationId with
  | some actual =>
    by_cases hsame : actual = migration.checksum
    · simp only [if_pos hsame]
      rfl
    · simp only [if_neg hsame]
      rfl
  | none =>
    cases hscript : runScript engine baseline migration progress.schema with
    | error e =>
      simp only [afterwards, hscript]
      rfl
    | ok schema =>
      simp only [afterwards, hscript, ok_bind]
      exact recordOne_afterwards earlier progress migration schema

theorem applyAll_afterwards (earlier : List String) (progress : Progress S) :
    applyAll engine baseline recorded migrations (afterwards earlier progress) =
      (applyAll engine baseline recorded migrations progress).map (afterwards earlier) := by
  induction migrations generalizing progress with
  | nil => rfl
  | cons migration migrations ih =>
    rw [applyAll, applyAll, List.foldlM_cons, List.foldlM_cons, applyOne_afterwards]
    cases applyOne engine baseline recorded progress migration with
    | error e => rfl
    | ok next => exact ih next

/-- Only what is recorded of the migrations themselves matters. -/
theorem applyAll_congr
    (h : ∀ migration ∈ migrations, recorded.lookup migration.migrationId = known.lookup migration.migrationId)
    (progress : Progress S) : applyAll engine baseline recorded migrations progress =
      applyAll engine baseline known migrations progress := by
  induction migrations generalizing progress with
  | nil => rfl
  | cons migration migrations ih =>
    obtain ⟨hfirst, hrest⟩ := List.forall_mem_cons.mp h
    have hone : applyOne engine baseline recorded progress migration =
      applyOne engine baseline known progress migration := by
      rw [applyOne, applyOne, hfirst]
    rw [applyAll, applyAll, List.foldlM_cons, List.foldlM_cons, hone]
    cases applyOne engine baseline known progress migration with
    | error e => rfl
    | ok next => exact ih hrest next

theorem applyAll_append (progress : Progress S) : applyAll engine baseline recorded (older ++ newer) progress =
    applyAll engine baseline recorded older progress >>= applyAll engine baseline recorded newer :=
  List.foldlM_append

theorem applyAll_mapped (hkeeps : KeepsMapped engine) (h : applyAll engine false recorded migrations progress = .ok next)
    (hmapped : isMapped engine progress.schema = true) : isMapped engine next.schema = true := by
  induction migrations generalizing progress with
  | nil =>
    cases h
    exact hmapped
  | cons migration migrations ih =>
    rw [applyAll, List.foldlM_cons] at h
    obtain ⟨second, hsecond, h⟩ := bind_eq_ok.mp h
    refine ih h ?_
    rcases applyOne_eq_ok hsecond with ⟨-, rfl⟩ | ⟨-, hscript, -, -⟩
    · exact hmapped
    · rw [runScript, if_neg Bool.false_ne_true] at hscript
      split at hscript
      · cases hscript
      · exact hkeeps _ _ _ (mapError_eq_ok.mp hscript) hmapped

/-- What a call makes of the progress of its loop. -/
def finished (progress : Progress S) : MigrationDatabase S × List String :=
  (⟨progress.schema, some progress.ledger⟩, progress.applied)

theorem applyRelease_mapped (h : isMapped engine db.schema = true) : applyRelease engine migrations db =
    (applyAll engine false db.recorded migrations ⟨db.schema, db.recorded, []⟩).map finished := by
  rw [applyRelease, h]
  simp only [Bool.not_true, prepareSchema, Bool.false_eq_true, if_false, ok_bind]
  cases applyAll engine false db.recorded migrations ⟨db.schema, db.recorded, []⟩ <;> rfl

/-- A release after an earlier one runs what the earlier one lacks. -/
theorem applyRelease_again (hkeeps : KeepsMapped engine) (hmapped : isMapped engine db.schema = true)
    (hdistinct : ((older ++ newer).map Migration.migrationId).Nodup) :
    applyRelease engine (older ++ newer) db = (do
      let first ← applyRelease engine older db
      let last ← applyRelease engine (older ++ newer) first.1
      return (last.1, first.2 ++ last.2)) := by
  rw [applyRelease_mapped hmapped, applyRelease_mapped hmapped, applyAll_append]
  cases hfirst : applyAll engine false db.recorded older ⟨db.schema, db.recorded, []⟩ with
  | error e => rfl
  | ok progress =>
    have hstill : isMapped engine (finished progress).1.schema = true := applyAll_mapped hkeeps hfirst hmapped
    obtain ⟨added, hadded⟩ := applyAll_applied hfirst
    have hskip : applyAll engine false progress.ledger older ⟨progress.schema, progress.ledger, []⟩ =
        .ok ⟨progress.schema, progress.ledger, []⟩ := applyAll_recorded fun _ hmem => hadded.lookup rfl hmem
    have hsame : ∀ migration ∈ newer, progress.ledger.lookup migration.migrationId =
        db.recorded.lookup migration.migrationId := by
      intro migration hmem
      refine hadded.lookup_other fun holder => ?_
      rw [List.map_append] at hdistinct
      exact (List.disjoint_of_nodup_append hdistinct) holder (List.mem_map_of_mem hmem)
    have hresume : applyAll engine false db.recorded newer progress =
        (applyAll engine false db.recorded newer ⟨progress.schema, progress.ledger, []⟩).map
          (afterwards progress.applied) := by
      rw [← applyAll_afterwards, afterwards, List.append_nil]
    have hagain : applyRelease engine (older ++ newer) (finished progress).1 =
        (applyAll engine false db.recorded newer ⟨progress.schema, progress.ledger, []⟩).map finished := by
      rw [applyRelease_mapped hstill, applyAll_append]
      change (applyAll engine false progress.ledger older ⟨progress.schema, progress.ledger, []⟩ >>= _).map finished = _
      rw [hskip, ok_bind]
      exact congrArg (Except.map finished) (applyAll_congr hsame _)
    change (applyAll engine false db.recorded newer progress).map finished = (do
      let last ← applyRelease engine (older ++ newer) (finished progress).1
      return (last.1, (finished progress).2 ++ last.2))
    rw [hagain, hresume]
    cases applyAll engine false db.recorded newer ⟨progress.schema, progress.ledger, []⟩ <;> rfl

/-- A database that went through all releases is the one that the last release makes of it. -/
theorem deploy_eq (hkeeps : KeepsMapped engine) {release : List Migration} {later : List (List Migration)}
    (hdistinct : ((release ++ later.flatten).map Migration.migrationId).Nodup)
    (hmapped : isMapped engine db.schema = true) :
    deploy engine release later db = applyRelease engine (release ++ later.flatten) db := by
  induction later generalizing release db with
  | nil => rw [deploy, List.flatten_nil, List.append_nil]
  | cons added later ih =>
    rw [List.flatten_cons] at hdistinct ⊢
    rw [deploy, applyRelease_again hkeeps hmapped hdistinct]
    cases hfirst : applyRelease engine release db with
    | error e => rfl
    | ok first =>
      have hstill : isMapped engine first.1.schema = true := by
        rw [applyRelease_mapped hmapped] at hfirst
        obtain ⟨progress, hprogress, rfl⟩ := map_eq_ok.mp hfirst
        exact applyAll_mapped hkeeps hprogress hmapped
      rw [ok_bind, ok_bind, ih (by rwa [List.append_assoc]) hstill, List.append_assoc]

end Upgrade

end StockContent.Migrations
