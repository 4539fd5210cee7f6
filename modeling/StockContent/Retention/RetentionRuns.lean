import StockContent.Retention.RetentionService

/-! Runs of retention: any candidates, clocks, policies, dry runs, failures of the adapter and calls that break off. -/
namespace StockContent.Retention
open Storage

section Runs
variable {sensitive : String → Bool} (digest : String → String)

def World.empty : World sensitive := ⟨.empty, [], []⟩

def run (calls : List (Call sensitive)) (w : World sensitive) : World sensitive :=
  calls.foldl (fun w call => (execute digest call w).1) w

/-- The row is of the tombstone of a candidate. -/
structure Names (row : RetentionExecutionRow) (candidate : RetentionCandidate sensitive) : Prop where
  artifactId : row.artifactId = candidate.artifactId
  artifactClass : row.artifactClass = candidate.artifactClass
  contentHash : row.contentHash = candidate.contentHash
  sourceIdentityHash : row.sourceIdentityHash = candidate.sourceIdentityHash
  auditLineageId : row.auditLineageId = candidate.auditLineageId

/-- A call of the byte deleter for what is due, with a durable row of exactly its tombstone. -/
structure Justified (d : Deletion sensitive) : Prop where
  due : Due d.call
  key : d.key = tombstoneIdOf digest d.call.candidate
  durable : ∃ row, d.durable = some row ∧ row.tombstoneId = d.key ∧ row.state ≠ .deleted ∧ Names row d.call.candidate

/-- Where a call goes on to delete, a row that is already under its tombstone id is of its own tombstone. -/
def Fits (w : World sensitive) (call : Call sensitive) : Prop :=
  Due call → ∀ row, w.rows.get (tombstoneIdOf digest call.candidate) = some row → row.state ≠ .deleted →
    Names row call.candidate

/-- The number of outcomes up to the first success. -/
def upToSuccess : List Bool → Nat
  | [] => 0
  | true :: _ => 1
  | false :: outcomes => upToSuccess outcomes + 1

def outcomesOf (outcomes : List (String × Bool)) (tombstoneId : String) : List Bool :=
  (outcomes.filter (·.1 = tombstoneId)).map Prod.snd

/-- What a call does to a row: the tombstone stays, and a deleted row stays as it is. -/
structure RowKept (row row' : RetentionExecutionRow) : Prop where
  artifactId : row'.artifactId = row.artifactId
  tombstone : (executionOf row').tombstone = (executionOf row).tombstone
  deleted : row.state = .deleted → row' = row

theorem RowKept.refl (row : RetentionExecutionRow) : RowKept row row := ⟨rfl, rfl, fun _ => rfl⟩

theorem RowKept.trans {a b c : RetentionExecutionRow} (hab : RowKept a b) (hbc : RowKept b c) : RowKept a c where
  artifactId := hbc.artifactId.trans hab.artifactId
  tombstone := hbc.tombstone.trans hab.tombstone
  deleted h := by
    have hb := hab.deleted h
    rw [hb] at hbc
    exact hbc.deleted h

theorem rowKept_deletedRow (finalizedAt : Time) (row : RetentionExecutionRow) :
    RowKept row (deletedRow finalizedAt row) := by
  rw [deletedRow]
  split
  · rename_i hstate
    exact ⟨rfl, rfl, fun h => absurd h hstate⟩
  · exact .refl row

theorem rowKept_failedRow (errorCode : String) (row : RetentionExecutionRow) :
    RowKept row (failedRow errorCode row) := by
  rw [failedRow]
  split
  · rename_i hstate
    exact ⟨rfl, rfl, fun h => absurd h hstate⟩
  · exact .refl row

theorem upToSuccess_append {outcomes : List Bool} (h : true ∉ outcomes) (outcome : Bool) :
    upToSuccess (outcomes ++ [outcome]) = upToSuccess outcomes + 1 := by
  induction outcomes with
  | nil => cases outcome <;> rfl
  | cons first outcomes ih =>
    obtain ⟨hfirst, hrest⟩ := not_or.mp (mt List.mem_cons.mpr h)
    cases first with
    | true => exact absurd rfl hfirst
    | false => exact congrArg (· + 1) (ih hrest)

/-- What holds of the rows and the outcomes between any two calls. -/
structure RetentionInv (rows : RetentionTable) (outcomes : List (String × Bool)) : Prop where
  artifacts : ∀ id id' row row', rows.get id = some row → rows.get id' = some row' →
    row.artifactId = row'.artifactId → id = id'
  attempts : ∀ id row, rows.get id = some row → row.attemptCount = upToSuccess (outcomesOf outcomes id)
  deleted : ∀ id row, rows.get id = some row → (row.state = .deleted ↔ true ∈ outcomesOf outcomes id)
  recorded : ∀ outcome ∈ outcomes, rows.get outcome.1 ≠ none

variable {digest} {w w' : World sensitive} {call : Call sensitive} {rows rows' : RetentionTable}
  {outcomes : List (String × Bool)}

theorem outcomesOf_append (outcomes : List (String × Bool)) (key id : String) (outcome : Bool) :
    outcomesOf (outcomes ++ [(key, outcome)]) id =
      if key = id then outcomesOf outcomes id ++ [outcome] else outcomesOf outcomes id := by
  rw [outcomesOf, List.filter_append, List.map_append]
  by_cases h : key = id
  · rw [if_pos h, show [(key, outcome)].filter (·.1 = id) = [(key, outcome)] by simp [h]]
    rfl
  · rw [if_neg h, show [(key, outcome)].filter (·.1 = id) = [] by simp [h]]
    exact List.append_nil _

theorem outcomesOf_free {id : String} (hinv : RetentionInv rows outcomes) (h : rows.get id = none) :
    outcomesOf outcomes id = [] := by
  rw [outcomesOf, List.map_eq_nil_iff, List.filter_eq_nil_iff]
  intro outcome houtcome hid
  have hne := hinv.recorded outcome houtcome
  rw [of_decide_eq_true hid] at hne
  exact hne h

theorem Recorded.evolves (h : Recorded digest call rows rows') :
    Table.Evolves (fun row => Names row call.candidate) RowKept rows rows' := by
  cases h with
  | same => exact .refl RowKept.refl rows
  | added hinsert _ => exact .insert hinsert RowKept.refl ⟨rfl, rfl, rfl, rfl, rfl⟩

/-- A tombstone that is recorded is the only one of its artifact and has no outcomes yet. -/
theorem Recorded.inv (h : Recorded digest call rows rows') (hinv : RetentionInv rows outcomes) :
    RetentionInv rows' outcomes := by
  cases h with
  | same => exact hinv
  | added hinsert hartifact =>
    have hget := Table.get_insert hinsert
    have hfree := (Table.insert_eq_some hinsert).1
    have hother (id : String) (row : RetentionExecutionRow) (h : rows.get id = some row) :
        row.artifactId ≠ call.candidate.artifactId := hartifact row (Table.mem_of_get h)
    refine ⟨fun id id' row row' hid hid' hsame => ?_, fun id row hid => ?_, fun id row hid => ?_, ?_⟩
    · rw [hget] at hid hid'
      split at hid
      · rename_i hkey
        cases hid
        split at hid'
        · rename_i hkey'
          exact hkey.symm.trans hkey'
        · exact absurd hsame.symm (hother id' row' hid')
      · split at hid'
        · cases hid'
          exact absurd hsame (hother id row hid)
        · exact hinv.artifacts id id' row row' hid hid' hsame
    · rw [hget] at hid
      split at hid
      · rename_i hkey
        cases hid
        rw [← hkey, outcomesOf_free hinv hfree]
        rfl
      · exact hinv.attempts id row hid
    · rw [hget] at hid
      split at hid
      · rename_i hkey
        cases hid
        rw [← hkey, outcomesOf_free hinv hfree]
        exact iff_of_false (fun h => by cases h) List.not_mem_nil
      · exact hinv.deleted id row hid
    · intro outcome houtcome hnone
      rw [hget] at hnone
      split at hnone
      · cases hnone
      · exact hinv.recorded outcome houtcome hnone

/-- An outcome is recorded for a row that is not deleted: one attempt more. -/
theorem RetentionInv.mark (hinv : RetentionInv rows outcomes) {key : String} {row : RetentionExecutionRow}
    (hrow : rows.get key = some row) (hstate : row.state ≠ .deleted) {f : RetentionExecutionRow → RetentionExecutionRow}
    (hf : ∀ row, (f row).tombstoneId = row.tombstoneId) (hartifact : (f row).artifactId = row.artifactId)
    (hcount : (f row).attemptCount = row.attemptCount + 1) {outcome : Bool}
    (hdone : (f row).state = .deleted ↔ outcome = true) :
    RetentionInv (rows.modify key f hf) (outcomes ++ [(key, outcome)]) := by
  have hfailed : true ∉ outcomesOf outcomes key := mt (hinv.deleted key row hrow).mpr hstate
  have hself : (rows.modify key f hf).get key = some (f row) := by
    rw [Table.get_modify_self, hrow]
    rfl
  have hback (id : String) (row' : RetentionExecutionRow) (h : (rows.modify key f hf).get id = some row') :
      ∃ old, rows.get id = some old ∧ row'.artifactId = old.artifactId := by
    by_cases hid : id = key
    · subst hid
      cases hself.symm.trans h
      exact ⟨row, hrow, hartifact⟩
    · rw [Table.get_modify_ne _ _ _ hid] at h
      exact ⟨row', h, rfl⟩
  refine ⟨fun id id' a b ha hb hsame => ?_, fun id row' h => ?_, fun id row' h => ?_, fun other hother => ?_⟩
  · obtain ⟨olda, ha, haid⟩ := hback id a ha
    obtain ⟨oldb, hb, hbid⟩ := hback id' b hb
    exact hinv.artifacts id id' olda oldb ha hb (haid.symm.trans (hsame.trans hbid))
  · rw [outcomesOf_append]
    by_cases hid : key = id
    · subst hid
      cases hself.symm.trans h
      rw [if_pos rfl, upToSuccess_append hfailed, hcount, hinv.attempts key row hrow]
    · rw [Table.get_modify_ne _ _ _ (Ne.symm hid)] at h
      rw [if_neg hid]
      exact hinv.attempts id row' h
  · rw [outcomesOf_append]
    by_cases hid : key = id
    · subst hid
      cases hself.symm.trans h
      rw [if_pos rfl, hdone, List.mem_append, or_iff_right hfailed, List.mem_singleton, eq_comm]
    · rw [Table.get_modify_ne _ _ _ (Ne.symm hid)] at h
      rw [if_neg hid]
      exact hinv.deleted id row' h
  · by_cases hid : other.1 = key
    · rw [hid, hself]
      exact Option.some_ne_none _
    · rw [Table.get_modify_ne _ _ _ hid]
      rcases List.mem_append.mp hother with hother | hother
      · exact hinv.recorded other hother
      · cases List.mem_singleton.mp hother
        exact absurd rfl hid

theorem Executed.inv (h : Executed digest call w w') (hinv : RetentionInv w.rows w.outcomes) :
    RetentionInv w'.rows w'.outcomes := by
  cases h with
  | planned hrows => exact hrows.inv hinv
  | deleted hrows => exact hrows.inv hinv
  | failed hrows _ hget hstate =>
    refine (hrows.inv hinv).mark hget hstate (failedRow_id _) ?_ ?_ ?_ <;> rw [failedRow, if_pos hstate]
    exact ⟨fun h => (by cases h), fun h => (by cases h)⟩
  | succeeded hrows _ hget hstate =>
    refine (hrows.inv hinv).mark hget hstate (deletedRow_id _) ?_ ?_ ?_ <;> rw [deletedRow, if_pos hstate]
    exact ⟨fun _ => rfl, fun _ => rfl⟩

/-- Rows stay with their tombstones, and a deleted row stays as it is. -/
theorem Executed.kept (h : Executed digest call w w') {id : String} {row : RetentionExecutionRow}
    (hrow : w.rows.get id = some row) : ∃ row', w'.rows.get id = some row' ∧ RowKept row row' := by
  have hmodify {rows : RetentionTable} (hrows : Recorded digest call w.rows rows) (key : String)
      {f : RetentionExecutionRow → RetentionExecutionRow} (hf : ∀ row, (f row).tombstoneId = row.tombstoneId)
      (hkept : ∀ row, RowKept row (f row)) : ∃ row', (rows.modify key f hf).get id = some row' ∧ RowKept row row' := by
    obtain ⟨row₁, hrow₁, hkept₁⟩ := hrows.evolves.old id row hrow
    have hevolves : Table.Evolves (fun _ => True) RowKept rows (rows.modify key f hf) :=
      .modify rows hf RowKept.refl fun row _ => hkept row
    obtain ⟨row₂, hrow₂, hkept₂⟩ := hevolves.old id row₁ hrow₁
    exact ⟨row₂, hrow₂, hkept₁.trans hkept₂⟩
  cases h with
  | planned hrows => exact hrows.evolves.old id row hrow
  | deleted hrows => exact hrows.evolves.old id row hrow
  | failed hrows => exact hmodify hrows _ (failedRow_id _) (rowKept_failedRow _)
  | succeeded hrows => exact hmodify hrows _ (deletedRow_id _) (rowKept_deletedRow _)

/-- The deletion of a call, if there is one: under a row that is there then and not deleted, and stays. -/
theorem Executed.deletions (h : Executed digest call w w') :
    w'.deletions = w.deletions ∨ ∃ rows row, Recorded digest call w.rows rows ∧ Due call ∧
      rows.get (tombstoneIdOf digest call.candidate) = some row ∧ row.state ≠ .deleted ∧
      w'.deletions = w.deletions ++ [⟨call, tombstoneIdOf digest call.candidate, some row⟩] ∧
      ∃ row', w'.rows.get (tombstoneIdOf digest call.candidate) = some row' ∧ row'.artifactId = row.artifactId := by
  have hmodify {rows : RetentionTable} {key : String} {row : RetentionExecutionRow} (hget : rows.get key = some row)
      {f : RetentionExecutionRow → RetentionExecutionRow} (hf : ∀ row, (f row).tombstoneId = row.tombstoneId)
      (hkept : ∀ row, RowKept row (f row)) :
      ∃ row', (rows.modify key f hf).get key = some row' ∧ row'.artifactId = row.artifactId := by
    refine ⟨f row, ?_, (hkept row).artifactId⟩
    rw [Table.get_modify_self, hget]
    rfl
  cases h with
  | planned hrows => exact .inl rfl
  | deleted hrows hdue hget hstate => exact .inr ⟨_, _, hrows, hdue, hget, hstate, rfl, _, hget, rfl⟩
  | failed hrows hdue hget hstate =>
    exact .inr ⟨_, _, hrows, hdue, hget, hstate, rfl, hmodify hget (failedRow_id _) (rowKept_failedRow _)⟩
  | succeeded hrows hdue hget hstate =>
    exact .inr ⟨_, _, hrows, hdue, hget, hstate, rfl, hmodify hget (deletedRow_id _) (rowKept_deletedRow _)⟩

/-- A row under which a fitting call deletes is of the candidate's own tombstone. -/
theorem Recorded.names (h : Recorded digest call w.rows rows) (hfits : Fits digest w call) (hdue : Due call)
    {row : RetentionExecutionRow} (hget : rows.get (tombstoneIdOf digest call.candidate) = some row)
    (hstate : row.state ≠ .deleted) : Names row call.candidate := by
  cases hold : w.rows.get (tombstoneIdOf digest call.candidate) with
  | none => exact h.evolves.new _ row hold hget
  | some old =>
    cases h with
    | same => exact hfits hdue row hget hstate
    | added hinsert =>
      have hfree := (Table.insert_eq_some hinsert).1
      cases hfree.symm.trans hold

theorem run_append (before after : List (Call sensitive)) (w : World sensitive) :
    run digest (before ++ after) w = run digest after (run digest before w) := by
  rw [run, run, run, List.foldl_append]

theorem run_inv (calls : List (Call sensitive)) (hw : RetentionInv w.rows w.outcomes) :
    RetentionInv (run digest calls w).rows (run digest calls w).outcomes := by
  induction calls generalizing w with
  | nil => exact hw
  | cons call calls ih => exact ih ((execute_executed digest call w).inv hw)

theorem run_kept (calls : List (Call sensitive)) {id : String} {row : RetentionExecutionRow}
    (hrow : w.rows.get id = some row) : ∃ row', (run digest calls w).rows.get id = some row' ∧ RowKept row row' := by
  induction calls generalizing w row with
  | nil => exact ⟨row, hrow, .refl row⟩
  | cons call calls ih =>
    obtain ⟨row₁, hrow₁, hkept₁⟩ := (execute_executed digest call w).kept hrow
    obtain ⟨row₂, hrow₂, hkept₂⟩ := ih hrow₁
    exact ⟨row₂, hrow₂, hkept₁.trans hkept₂⟩

/-- What is known of a deletion from then on: it was justified, and its row stays with its artifact. -/
structure Accounted (digest : String → String) (w : World sensitive) (d : Deletion sensitive) : Prop where
  justified : Justified digest d
  row : ∃ row, w.rows.get d.key = some row ∧ row.artifactId = d.call.candidate.artifactId

theorem Accounted.run {d : Deletion sensitive} (h : Accounted digest w d) (calls : List (Call sensitive)) :
    Accounted digest (run digest calls w) d := by
  obtain ⟨row, hrow, hartifact⟩ := h.row
  obtain ⟨row', hrow', hkept⟩ := run_kept calls hrow
  exact ⟨h.justified, row', hrow', hkept.artifactId.trans hartifact⟩

/-- A deletion that a fitting call makes is justified, and of no artifact whose row was deleted before. -/
theorem Executed.accounted (h : Executed digest call w w') (hinv : RetentionInv w.rows w.outcomes)
    (hfits : Fits digest w call) : w'.deletions = w.deletions ∨ ∃ d, w'.deletions = w.deletions ++ [d] ∧
      Accounted digest w' d ∧ ∀ id row, w.rows.get id = some row → row.state = .deleted →
        d.key ≠ id ∧ d.call.candidate.artifactId ≠ row.artifactId := by
  refine h.deletions.imp_right ?_
  rintro ⟨rows, row, hrows, hdue, hget, hstate, hdeletions, row', hrow', hartifact⟩
  have hid : row.tombstoneId = tombstoneIdOf digest call.candidate := Table.get_key hget
  have hnames := hrows.names hfits hdue hget hstate
  refine ⟨_, hdeletions, ⟨⟨hdue, rfl, row, rfl, hid, hstate, hnames⟩, row', hrow', ?_⟩,
    fun id done hdone hdeleted => ?_⟩
  · exact hartifact.trans hnames.artifactId
  · -- the row that was deleted before is still there, and deleted
    obtain ⟨kept, hkept, hsame⟩ := hrows.evolves.old id done hdone
    cases hsame.deleted hdeleted
    have hne : tombstoneIdOf digest call.candidate ≠ id := by
      rintro rfl
      cases hget.symm.trans hkept
      exact hstate hdeleted
    refine ⟨hne, fun hartifact => hne ?_⟩
    exact (hrows.inv hinv).artifacts _ _ row done hget hkept (hnames.artifactId.trans hartifact)

/-- In a run of fitting calls each deletion is accounted for, and none is of an artifact that was deleted before. -/
theorem run_deletions (calls : List (Call sensitive)) (hinv : RetentionInv w.rows w.outcomes)
    (hfits : ∀ before call after, calls = before ++ call :: after → Fits digest (run digest before w) call) :
    ∃ new, (run digest calls w).deletions = w.deletions ++ new ∧ ∀ d ∈ new, Accounted digest (run digest calls w) d ∧
      ∀ id row, w.rows.get id = some row → row.state = .deleted →
        d.key ≠ id ∧ d.call.candidate.artifactId ≠ row.artifactId := by
  induction calls generalizing w with
  | nil => exact ⟨[], (List.append_nil _).symm, fun d hd => by cases hd⟩
  | cons call calls ih =>
    have hstep := execute_executed digest call w
    obtain ⟨new, hnew, hall⟩ := ih (hstep.inv hinv) fun before other after hcalls =>
      hfits (call :: before) other after (congrArg (call :: ·) hcalls)
    have hlater : ∀ d ∈ new, Accounted digest (run digest (call :: calls) w) d ∧
        ∀ id row, w.rows.get id = some row → row.state = .deleted →
          d.key ≠ id ∧ d.call.candidate.artifactId ≠ row.artifactId := by
      intro d hd
      obtain ⟨haccounted, hgone⟩ := hall d hd
      refine ⟨haccounted, fun id row hrow hdeleted => ?_⟩
      obtain ⟨row', hrow', hkept⟩ := hstep.kept hrow
      cases hkept.deleted hdeleted
      exact hgone id row hrow' hdeleted
    rcases hstep.accounted hinv (hfits [] call calls rfl) with hsame | ⟨d, hd, haccounted, hgone⟩
    · exact ⟨new, by rw [← hsame]; exact hnew, hlater⟩
    · refine ⟨d :: new, ?_, List.forall_mem_cons.mpr ⟨⟨haccounted.run calls, hgone⟩, hlater⟩⟩
      rw [hd, List.append_assoc] at hnew
      exact hnew

/-- What is safe about a run: every deletion is justified, a deleted row stays deleted and its artifact is not deleted
again, attempts are the recorded outcomes up to the first success, and an artifact has one tombstone. -/
structure RetentionSafe (digest : String → String) (calls : List (Call sensitive)) : Prop where
  justified : ∀ d ∈ (run digest calls .empty).deletions, Justified digest d
  deleted : ∀ before after, calls = before ++ after → ∀ id row,
    (run digest before .empty).rows.get id = some row → row.state = .deleted →
    (run digest calls .empty).rows.get id = some row ∧
    ∃ new, (run digest calls .empty).deletions = (run digest before .empty).deletions ++ new ∧
      ∀ d ∈ new, d.key ≠ id ∧ d.call.candidate.artifactId ≠ row.artifactId
  attempts : ∀ id row, (run digest calls .empty).rows.get id = some row →
    row.attemptCount = upToSuccess (outcomesOf (run digest calls .empty).outcomes id)
  tombstones : ∀ id id' row row', (run digest calls .empty).rows.get id = some row →
    (run digest calls .empty).rows.get id' = some row' → row.artifactId = row'.artifactId → id = id'
  keys : ∀ d ∈ (run digest calls .empty).deletions, ∀ d' ∈ (run digest calls .empty).deletions,
    d.call.candidate.artifactId = d'.call.candidate.artifactId → d.key = d'.key

theorem empty_inv : RetentionInv (Table.empty : RetentionTable) [] :=
  ⟨fun _ _ _ _ h => (by cases h), fun _ _ h => (by cases h), fun _ _ h => (by cases h), fun _ h => by cases h⟩

/-- A run is safe when each of its calls that deletes under a row that was there deletes under its own row. -/
theorem retention_runs_safe (digest : String → String) (calls : List (Call sensitive))
    (hfits : ∀ before call after, calls = before ++ call :: after → Fits digest (run digest before .empty) call) :
    RetentionSafe digest calls := by
  have hinv : RetentionInv (run digest calls .empty).rows (run digest calls .empty).outcomes :=
    run_inv calls empty_inv
  obtain ⟨new, hnew, hall⟩ := run_deletions calls empty_inv hfits
  have haccounted : ∀ d ∈ (run digest calls .empty).deletions, Accounted digest (run digest calls .empty) d := by
    intro d hd
    rw [hnew] at hd
    exact (hall d hd).1
  refine ⟨fun d hd => (haccounted d hd).justified, ?_, hinv.attempts, hinv.artifacts, ?_⟩
  · rintro before after rfl id row hrow hdeleted
    obtain ⟨row', hrow', hkept⟩ := run_kept after hrow
    cases hkept.deleted hdeleted
    rw [run_append]
    refine ⟨hrow', ?_⟩
    obtain ⟨later, hlater, hgone⟩ := run_deletions after (run_inv before empty_inv) fun first call rest hafter => by
      rw [← run_append]
      exact hfits (before ++ first) call rest (by rw [hafter, List.append_assoc])
    exact ⟨later, hlater, fun d hd => (hgone d hd).2 id row hrow hdeleted⟩
  · intro d hd d' hd' hsame
    obtain ⟨row, hrow, hartifact⟩ := (haccounted d hd).row
    obtain ⟨row', hrow', hartifact'⟩ := (haccounted d' hd').row
    exact hinv.artifacts _ _ row row' hrow hrow' (hartifact.trans (hsame.trans hartifact'.symm))

end Runs

section Inputs

/-- A call for what expired a day ago, whose adapter fails. -/
def failingCall (candidate : RetentionCandidate fun _ => false) : Call fun _ => false where
  policy := ⟨fun _ => 7, fun _ => by decide⟩
  candidate := candidate
  now := candidate.createdAt + seconds (86400 * 8)
  dryRun := false
  recordedAt := candidate.createdAt
  finalizedAt := candidate.createdAt
  adapterError := some "OSERROR"
  breakAt := none

/-- Two artifacts whose ids and hashes join to one text: the second is deleted under the row of the first. -/
theorem joined_identities_unsafe : ¬ RetentionSafe (fun text => text)
    [failingCall ⟨"a", .rawMedia, "b|raw_media|c", "source", "lineage", 0, false, by decide⟩,
      failingCall ⟨"a|raw_media|b", .rawMedia, "c", "source", "lineage", 0, false, by decide⟩] := by
  intro hsafe
  have hartifact := fun d hd => (hsafe.justified d hd).durable
  have hnames : ∀ d ∈ (run (fun text => text)
      [failingCall ⟨"a", .rawMedia, "b|raw_media|c", "source", "lineage", 0, false, by decide⟩,
        failingCall ⟨"a|raw_media|b", .rawMedia, "c", "source", "lineage", 0, false, by decide⟩] .empty).deletions,
      d.durable.map (·.artifactId) = some d.call.candidate.artifactId := by
    intro d hd
    obtain ⟨row, hrow, _, _, hnames⟩ := hartifact d hd
    rw [hrow]
    exact congrArg some hnames.artifactId
  revert hnames
  decide

/-- A call alone has no row but its own. -/
theorem one_call_safe : RetentionSafe (fun text => text)
    [failingCall ⟨"a", .rawMedia, "b", "source", "lineage", 0, false, by decide⟩] :=
  retention_runs_safe _ _ (by
    intro before call after hcalls hdue row hrow
    cases before with
    | nil => cases hrow
    | cons first before =>
      have hlength := congrArg List.length hcalls
      simp at hlength)

end Inputs
end StockContent.Retention
