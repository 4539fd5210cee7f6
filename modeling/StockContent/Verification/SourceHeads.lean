import Mathlib.Data.Prod.Lex
import StockContent.Verification.SnapshotRefresh

/-! Source heads under snapshot saves and verification closures, in any order. Each call advances
the head of its source or leaves it; the verified head follows the same comparison. -/
namespace StockContent.Verification
open Storage

/-- What decides between two snapshots of a source: the later one, at equal times the greater id. -/
def headKey (row : ContentSourceHeadRow) : Time ×ₗ String := toLex (row.updatedAt, row.latestSnapshotId)

section Upsert

theorem headIsNewer_iff {new old : ContentSourceHeadRow} : headIsNewer new old ↔ headKey old < headKey new := by
  rw [headIsNewer, headKey, headKey, Prod.Lex.toLex_lt_toLex]
  refine or_congr Iff.rfl (and_congr_left fun _ => eq_comm)

/-- How a conflicting insert changes the head that is there. -/
@[ext] structure HeadMerge where
  merge : ContentSourceHeadRow → ContentSourceHeadRow → ContentSourceHeadRow
  source : ∀ new old, (merge new old).sourceIdentityHash = old.sourceIdentityHash
  advances : ∀ new old, headKey (merge new old) = max (headKey old) (headKey new)

def HeadMerge.upsert (m : HeadMerge) (row : ContentSourceHeadRow) (heads : HeadTable) : HeadTable :=
  match heads.insert row with
  | some heads => heads
  | none => heads.modify row.sourceIdentityHash (m.merge row) (m.source row)

theorem headKey_ite {new old : ContentSourceHeadRow} {verified : Option String} :
    headKey { old with
      latestSnapshotId := if headIsNewer new old then new.latestSnapshotId else old.latestSnapshotId
      updatedAt := if headIsNewer new old then new.updatedAt else old.updatedAt
      latestVerifiedSnapshotId := verified } = max (headKey old) (headKey new) := by
  by_cases h : headIsNewer new old
  · simp only [if_pos h]
    rw [max_eq_right (headIsNewer_iff.mp h).le]
    rfl
  · simp only [if_neg h]
    rw [max_eq_left (not_lt.mp fun hlt => h (headIsNewer_iff.mpr hlt))]
    rfl

/-- A save: its values hold no verified snapshot. -/
def savedHead (new old : ContentSourceHeadRow) : ContentSourceHeadRow :=
  { old with
    latestSnapshotId := if headIsNewer new old then new.latestSnapshotId else old.latestSnapshotId
    updatedAt := if headIsNewer new old then new.updatedAt else old.updatedAt }

/-- A save where the database has no upsert: the head is locked, compared and changed. -/
def lockedSavedHead (new old : ContentSourceHeadRow) : ContentSourceHeadRow :=
  if headIsNewer new old then
    { old with latestSnapshotId := new.latestSnapshotId, updatedAt := new.updatedAt }
  else old

/-- A closure where the database has no upsert. -/
def lockedMergedHead (new old : ContentSourceHeadRow) : ContentSourceHeadRow :=
  if headIsNewer new old then
    { old with
      latestSnapshotId := new.latestSnapshotId
      updatedAt := new.updatedAt
      latestVerifiedSnapshotId := new.latestVerifiedSnapshotId.or old.latestVerifiedSnapshotId }
  else old

theorem lockedSavedHead_eq (new old : ContentSourceHeadRow) : lockedSavedHead new old = savedHead new old := by
  by_cases h : headIsNewer new old <;> simp [lockedSavedHead, savedHead, h]

def saves : HeadMerge where
  merge := savedHead
  source _ _ := rfl
  advances _ _ := headKey_ite

def lockedSaves : HeadMerge where
  merge := lockedSavedHead
  source new old := by rw [lockedSavedHead_eq]; rfl
  advances new old := by rw [lockedSavedHead_eq]; exact headKey_ite

theorem mergedHead_source (new old : ContentSourceHeadRow) :
    (mergedHead new old).sourceIdentityHash = old.sourceIdentityHash := rfl

def closures : HeadMerge where
  merge := mergedHead
  source := mergedHead_source
  advances _ _ := headKey_ite

def lockedClosures : HeadMerge where
  merge := lockedMergedHead
  source new old := by
    by_cases h : headIsNewer new old <;> simp [lockedMergedHead, h]
  advances new old := by
    by_cases h : headIsNewer new old
    · rw [lockedMergedHead, if_pos h, max_eq_right (headIsNewer_iff.mp h).le]
      rfl
    · rw [lockedMergedHead, if_neg h, max_eq_left (not_lt.mp fun hlt => h (headIsNewer_iff.mpr hlt))]

/-- The closure path is the upsert that a refresh makes. -/
theorem closures_upsert (row : ContentSourceHeadRow) (heads : HeadTable) :
    closures.upsert row heads = upsertSourceHead row heads := rfl

variable (m : HeadMerge)

theorem get_upsert (row : ContentSourceHeadRow) (heads : HeadTable) (source : String) :
    (m.upsert row heads).get source =
      if row.sourceIdentityHash = source then some ((heads.get source).elim row (m.merge row))
      else heads.get source := by
  rw [HeadMerge.upsert]
  split
  · rename_i heads' hinsert
    rw [Table.get_insert hinsert]
    by_cases hsource : row.sourceIdentityHash = source
    · subst hsource
      rw [if_pos rfl, if_pos rfl, (Table.insert_eq_some hinsert).1]
      rfl
    · rw [if_neg hsource, if_neg hsource]
  · rename_i hinsert
    by_cases hsource : row.sourceIdentityHash = source
    · subst hsource
      rw [Table.get_modify_self, if_pos rfl]
      cases hget : heads.get row.sourceIdentityHash with
      | none => exact absurd hget (Table.insert_eq_none.mp hinsert)
      | some old => rfl
    · rw [Table.get_modify_ne _ _ _ (Ne.symm hsource), if_neg hsource]

/-- One more snapshot for the head of its source. -/
def HeadMerge.step (head : Option ContentSourceHeadRow) (row : ContentSourceHeadRow) : Option ContentSourceHeadRow :=
  some (head.elim row (m.merge row))

def HeadMerge.run (rows : List ContentSourceHeadRow) (heads : HeadTable) : HeadTable :=
  rows.foldl (fun heads row => m.upsert row heads) heads

/-- The calls for other sources do not matter. -/
theorem get_run (rows : List ContentSourceHeadRow) (heads : HeadTable) (source : String) :
    (m.run rows heads).get source =
      (rows.filter (·.sourceIdentityHash = source)).foldl m.step (heads.get source) := by
  induction rows generalizing heads with
  | nil => rfl
  | cons row rows ih =>
    rw [HeadMerge.run, List.foldl_cons]
    refine (ih (m.upsert row heads)).trans ?_
    rw [get_upsert, List.filter_cons]
    by_cases hsource : row.sourceIdentityHash = source
    · rw [if_pos hsource, if_pos (decide_eq_true hsource), List.foldl_cons]
      rfl
    · rw [if_neg hsource, if_neg (by simpa using hsource)]

end Upsert

section Fold
variable {m : HeadMerge} {rows : List ContentSourceHeadRow} {start : Option ContentSourceHeadRow}

theorem step_key (head : Option ContentSourceHeadRow) (row : ContentSourceHeadRow) :
    (m.step head row).map headKey = some ((head.map headKey).elim (headKey row) (max · (headKey row))) := by
  cases head with
  | none => rfl
  | some head => exact congrArg some (m.advances row head)

/-- Which snapshot a run ends with does not depend on how verified heads are kept. -/
theorem fold_key (m m' : HeadMerge) (rows : List ContentSourceHeadRow) {start start' : Option ContentSourceHeadRow}
    (h : start.map headKey = start'.map headKey) :
    (rows.foldl m.step start).map headKey = (rows.foldl m'.step start').map headKey := by
  induction rows generalizing start start' with
  | nil => exact h
  | cons row rows ih =>
    rw [List.foldl_cons, List.foldl_cons]
    refine ih ?_
    rw [step_key, step_key, h]

theorem fold_source {source : String} (hrows : ∀ row ∈ rows, row.sourceIdentityHash = source)
    (hstart : ∀ head ∈ start, head.sourceIdentityHash = source) :
    ∀ head ∈ rows.foldl m.step start, head.sourceIdentityHash = source := by
  induction rows generalizing start with
  | nil => exact hstart
  | cons row rows ih =>
    obtain ⟨hrow, hrows⟩ := List.forall_mem_cons.mp hrows
    refine ih hrows ?_
    rintro _ ⟨⟩
    cases start with
    | none => exact hrow
    | some head => exact (m.source row head).trans (hstart head rfl)

theorem fold_some (head : ContentSourceHeadRow) : ∃ last, rows.foldl m.step (some head) = some last := by
  induction rows generalizing head with
  | nil => exact ⟨head, rfl⟩
  | cons row rows ih => exact ih (m.merge row head)

/-- No call moves a head back, and each one brings it at least to its own snapshot. -/
theorem fold_le {last : ContentSourceHeadRow} (h : rows.foldl m.step start = some last) :
    (∀ head ∈ start, headKey head ≤ headKey last) ∧ ∀ row ∈ rows, headKey row ≤ headKey last := by
  induction rows generalizing start with
  | nil => exact ⟨fun head hhead => by cases hhead.symm.trans h; exact le_rfl, fun row hrow => by cases hrow⟩
  | cons row rows ih =>
    obtain ⟨hle, hrows⟩ := ih h
    have hmerge := hle _ rfl
    cases start with
    | none => exact ⟨fun head hhead => (by cases hhead), List.forall_mem_cons.mpr ⟨hmerge, hrows⟩⟩
    | some head =>
      have hmax := (m.advances row head).ge.trans hmerge
      refine ⟨?_, List.forall_mem_cons.mpr ⟨(le_max_right _ _).trans hmax, hrows⟩⟩
      rintro _ ⟨⟩
      exact (le_max_left _ _).trans hmax

/-- The head is one of the snapshots that were seen. -/
theorem fold_seen {last : ContentSourceHeadRow} (h : rows.foldl m.step start = some last) :
    (∃ head ∈ start, headKey last = headKey head) ∨ ∃ row ∈ rows, headKey last = headKey row := by
  induction rows generalizing start with
  | nil => exact .inl ⟨last, h, rfl⟩
  | cons row rows ih =>
    rcases ih h with ⟨head, hhead, hkey⟩ | ⟨other, hother, hkey⟩
    · cases hhead
      cases start with
      | none => exact .inr ⟨row, List.mem_cons_self, hkey⟩
      | some head =>
        have hmerge := hkey.trans (m.advances row head)
        rcases max_choice (headKey head) (headKey row) with hmax | hmax
        · exact .inl ⟨head, rfl, hmerge.trans hmax⟩
        · exact .inr ⟨row, List.mem_cons_self, hmerge.trans hmax⟩
    · exact .inr ⟨other, List.mem_cons_of_mem row hother, hkey⟩

/-- The greatest snapshot, if none before the run was greater, is the head after it. -/
theorem fold_greatest {row : ContentSourceHeadRow} (hrow : row ∈ rows)
    (hrows : ∀ other ∈ rows, headKey other ≤ headKey row) (hstart : ∀ head ∈ start, headKey head ≤ headKey row) :
    ∃ last, rows.foldl m.step start = some last ∧ headKey last = headKey row := by
  obtain ⟨last, hlast⟩ : ∃ last, rows.foldl m.step start = some last := by
    obtain ⟨before, after, rfl⟩ := List.append_of_mem hrow
    rw [List.foldl_append]
    exact fold_some _
  refine ⟨last, hlast, le_antisymm ?_ ((fold_le hlast).2 row hrow)⟩
  rcases fold_seen hlast with ⟨head, hhead, hkey⟩ | ⟨other, hother, hkey⟩
  · rw [hkey]
    exact hstart head hhead
  · rw [hkey]
    exact hrows other hother

end Fold

section Saves

/-- What a save of a snapshot hands to the head of its source. -/
structure SnapshotSave where
  sourceIdentityHash : String
  snapshotId : String
  createdAt : Time
  deriving DecidableEq

def SnapshotSave.row (save : SnapshotSave) : ContentSourceHeadRow where
  sourceIdentityHash := save.sourceIdentityHash
  latestSnapshotId := save.snapshotId
  latestVerifiedSnapshotId := none
  updatedAt := save.createdAt

def SnapshotSave.key (save : SnapshotSave) : Time ×ₗ String := toLex (save.createdAt, save.snapshotId)

/-- Both paths compare and change alike. -/
theorem lockedSaves_eq : lockedSaves = saves := by
  have hmerge : lockedSavedHead = savedHead := funext fun new => funext fun old => lockedSavedHead_eq new old
  exact HeadMerge.ext hmerge

/-- Saves of any sources in any order, with repetitions: the head of a source ends as its greatest
snapshot, on both paths, and no save on the way moves a head back. -/
theorem source_head_converges (heads : HeadTable) (calls : List SnapshotSave) :
    lockedSaves.run (calls.map SnapshotSave.row) heads = saves.run (calls.map SnapshotSave.row) heads ∧
    (∀ save ∈ calls, (∀ other ∈ calls, other.sourceIdentityHash = save.sourceIdentityHash → other.key ≤ save.key) →
      (∀ head ∈ heads.get save.sourceIdentityHash, headKey head ≤ save.key) →
      ∃ head, (saves.run (calls.map SnapshotSave.row) heads).get save.sourceIdentityHash = some head ∧
        head.latestSnapshotId = save.snapshotId ∧ head.updatedAt = save.createdAt) ∧
    ∀ source, ∀ head ∈ heads.get source,
      ∃ last, (saves.run (calls.map SnapshotSave.row) heads).get source = some last ∧
        headKey head ≤ headKey last := by
  refine ⟨by rw [lockedSaves_eq], ?_, ?_⟩
  · intro save hsave hgreatest hhead
    have hmem : save.row ∈ (calls.map SnapshotSave.row).filter (·.sourceIdentityHash = save.sourceIdentityHash) :=
      List.mem_filter.mpr ⟨List.mem_map_of_mem hsave, decide_eq_true rfl⟩
    have hrows : ∀ other ∈ (calls.map SnapshotSave.row).filter (·.sourceIdentityHash = save.sourceIdentityHash),
        headKey other ≤ headKey save.row := by
      intro other hother
      obtain ⟨hother, hsource⟩ := List.mem_filter.mp hother
      obtain ⟨call, hcall, rfl⟩ := List.mem_map.mp hother
      exact hgreatest call hcall (of_decide_eq_true hsource)
    obtain ⟨last, hlast, hkey⟩ := fold_greatest hmem hrows hhead
    refine ⟨last, (get_run saves _ heads save.sourceIdentityHash).trans hlast, ?_⟩
    have hpair := toLex_inj.mp hkey
    exact ⟨congrArg Prod.snd hpair, congrArg Prod.fst hpair⟩
  · intro source head hhead
    rw [Option.mem_def] at hhead
    rw [get_run, hhead]
    obtain ⟨last, hlast⟩ := fold_some head
    exact ⟨last, hlast, (fold_le hlast).1 head rfl⟩

/-- A late save of an older snapshot leaves the head where it is. -/
theorem late_save_converges : ∃ head,
    (saves.run ([⟨"s", "new", 2⟩, ⟨"s", "old", 1⟩].map SnapshotSave.row) ⟨[], List.nodup_nil⟩).get "s" = some head ∧
      head.latestSnapshotId = "new" ∧ head.updatedAt = 2 :=
  (source_head_converges ⟨[], List.nodup_nil⟩ [⟨"s", "new", 2⟩, ⟨"s", "old", 1⟩]).2.1 ⟨"s", "new", 2⟩ (by decide)
    (by decide) (by decide)

end Saves

section Closures
variable (updatedAt : String → Time) (verified : String → Bool)

/-- The head that the closure of a snapshot hands over. -/
def closureRow (source : String) (snapshotId : String) : ContentSourceHeadRow where
  sourceIdentityHash := source
  latestSnapshotId := snapshotId
  latestVerifiedSnapshotId := if verified snapshotId then some snapshotId else none
  updatedAt := updatedAt snapshotId

def snapshotKey (snapshotId : String) : Time ×ₗ String := toLex (updatedAt snapshotId, snapshotId)

def laterSnapshot (best : Option String) (id : String) : Option String :=
  if best.all (fun other => updatedAt other < updatedAt id ∨ updatedAt other = updatedAt id ∧ other < id) then some id
  else best

/-- The verified snapshot with the greatest time and id. -/
def greatestVerified (closed : List String) : Option String :=
  (closed.filter verified).foldl (laterSnapshot updatedAt) none

/-- The verified head is the greatest verified snapshot, and both paths leave the same head. -/
def VerifiedConverges (source : String) (closed : List String) (heads : HeadTable) : Prop :=
  let rows := closed.map (closureRow updatedAt verified source)
  ((closures.run rows heads).get source).bind (·.latestVerifiedSnapshotId) =
      greatestVerified updatedAt verified closed ∧
    (lockedClosures.run rows heads).get source = (closures.run rows heads).get source

/-- When the greatest verified snapshot is closed for the first time it is newer than the head there was
before the closures and than every snapshot that was closed. -/
def ClosedInTime (start : Option ContentSourceHeadRow) (closed : List String) : Prop :=
  ∀ before id after, closed = before ++ id :: after → id ∉ before →
    greatestVerified updatedAt verified closed = some id →
    (∀ head ∈ start, headKey head < snapshotKey updatedAt id) ∧
    ∀ other ∈ before, snapshotKey updatedAt other < snapshotKey updatedAt id

variable {updatedAt verified} {source : String}

/-- The closures of one source, one after the other. -/
def closeAll (m : HeadMerge) (updatedAt : String → Time) (verified : String → Bool) (source : String)
    (closed : List String) (start : Option ContentSourceHeadRow) : Option ContentSourceHeadRow :=
  (closed.map (closureRow updatedAt verified source)).foldl m.step start

theorem closeAll_run (m : HeadMerge) (closed : List String) (heads : HeadTable) :
    (m.run (closed.map (closureRow updatedAt verified source)) heads).get source =
      closeAll m updatedAt verified source closed (heads.get source) := by
  have hall : ((closed.map (closureRow updatedAt verified source)).filter (·.sourceIdentityHash = source)) =
      closed.map (closureRow updatedAt verified source) := by
    refine List.filter_eq_self.mpr ?_
    intro row hrow
    obtain ⟨id, _, rfl⟩ := List.mem_map.mp hrow
    exact decide_eq_true rfl
  rw [get_run, hall, closeAll]

/-- How the two paths keep the verified head: nothing but a verified snapshot changes it, one that
is newer than the head always does, and one that is not never does once there is a verified head. -/
structure KeepsVerified (m : HeadMerge) : Prop where
  unverified : ∀ new old, new.latestVerifiedSnapshotId = none →
    (m.merge new old).latestVerifiedSnapshotId = old.latestVerifiedSnapshotId
  newer : ∀ new old, new.latestVerifiedSnapshotId.isSome → headIsNewer new old →
    (m.merge new old).latestVerifiedSnapshotId = new.latestVerifiedSnapshotId
  older : ∀ new old, old.latestVerifiedSnapshotId.isSome → ¬ headIsNewer new old →
    (m.merge new old).latestVerifiedSnapshotId = old.latestVerifiedSnapshotId

theorem closures_keepsVerified : KeepsVerified closures := by
  constructor
  · intro new old hnew
    exact if_neg (by simp [hnew])
  · intro new old hnew hnewer
    exact if_pos ⟨hnew, .inr hnewer⟩
  · intro new old hold hnewer
    refine if_neg ?_
    rintro ⟨_, hnone | h⟩
    · rw [hnone] at hold
      cases hold
    · exact hnewer h

theorem lockedClosures_keepsVerified : KeepsVerified lockedClosures := by
  constructor
  · intro new old hnew
    change (lockedMergedHead new old).latestVerifiedSnapshotId = _
    by_cases h : headIsNewer new old <;> simp [lockedMergedHead, h, hnew]
  · intro new old hnew hnewer
    obtain ⟨id, hid⟩ := Option.isSome_iff_exists.mp hnew
    change (lockedMergedHead new old).latestVerifiedSnapshotId = _
    simp [lockedMergedHead, hnewer, hid]
  · intro new old _ hnewer
    change (lockedMergedHead new old).latestVerifiedSnapshotId = _
    simp [lockedMergedHead, hnewer]

variable {m : HeadMerge}

theorem closureRow_verified {id : String} (h : verified id = true) :
    (closureRow updatedAt verified source id).latestVerifiedSnapshotId = some id := if_pos h

theorem closureRow_unverified {id : String} (h : ¬ verified id = true) :
    (closureRow updatedAt verified source id).latestVerifiedSnapshotId = none := if_neg h

/-- Once the greatest verified snapshot is the verified head, it stays. -/
theorem closeAll_kept (hm : KeepsVerified m) {closed : List String} {head last : ContentSourceHeadRow}
    (hsome : head.latestVerifiedSnapshotId.isSome)
    (hclosed : ∀ id ∈ closed, verified id = true → snapshotKey updatedAt id ≤ headKey head)
    (hlast : closeAll m updatedAt verified source closed (some head) = some last) :
    last.latestVerifiedSnapshotId = head.latestVerifiedSnapshotId := by
  induction closed generalizing head with
  | nil =>
    cases hlast
    rfl
  | cons id closed ih =>
    obtain ⟨hid, hclosed⟩ := List.forall_mem_cons.mp hclosed
    have hmerge : (m.merge (closureRow updatedAt verified source id) head).latestVerifiedSnapshotId =
        head.latestVerifiedSnapshotId := by
      by_cases hverified : verified id = true
      · exact hm.older _ _ hsome fun h => absurd (headIsNewer_iff.mp h) (not_lt.mpr (hid hverified))
      · exact hm.unverified _ _ (closureRow_unverified hverified)
    rw [← hmerge]
    refine ih (by rwa [hmerge]) ?_ hlast
    intro other hother hverified
    exact (hclosed other hother hverified).trans (m.advances _ head ▸ le_max_left _ _)

theorem closeAll_unverified (hm : KeepsVerified m) {closed : List String}
    (hclosed : ∀ id ∈ closed, ¬ verified id = true) {start : Option ContentSourceHeadRow}
    (hstart : start.bind (·.latestVerifiedSnapshotId) = none) :
    (closeAll m updatedAt verified source closed start).bind (·.latestVerifiedSnapshotId) = none := by
  induction closed generalizing start with
  | nil => exact hstart
  | cons id closed ih =>
    obtain ⟨hid, hclosed⟩ := List.forall_mem_cons.mp hclosed
    refine ih hclosed ?_
    cases start with
    | none => exact closureRow_unverified hid
    | some head => exact (hm.unverified _ _ (closureRow_unverified hid)).trans hstart

/-- Without an upsert, a snapshot that is not newer than the head never becomes the verified head. -/
theorem closeAll_locked_ne {closed : List String} {id : String} {start : Option ContentSourceHeadRow}
    (hstart : start.bind (·.latestVerifiedSnapshotId) ≠ some id)
    (hclosed : id ∉ closed ∨ ∃ head, start = some head ∧ snapshotKey updatedAt id ≤ headKey head) :
    (closeAll lockedClosures updatedAt verified source closed start).bind (·.latestVerifiedSnapshotId) ≠ some id := by
  induction closed generalizing start with
  | nil => exact hstart
  | cons other closed ih =>
    have hrow : other ≠ id → (closureRow updatedAt verified source other).latestVerifiedSnapshotId ≠ some id := by
      intro hne
      by_cases hverified : verified other = true
      · rw [closureRow_verified hverified]
        exact fun h => hne (Option.some_inj.mp h)
      · rw [closureRow_unverified hverified]
        exact (Option.some_ne_none id).symm
    refine ih ?_ ?_
    · cases start with
      | none =>
        rcases hclosed with hnot | ⟨head, hhead, _⟩
        · exact hrow fun h => hnot (h ▸ List.mem_cons_self)
        · cases hhead
      | some head =>
        change (lockedMergedHead (closureRow updatedAt verified source other) head).latestVerifiedSnapshotId ≠ some id
        rw [lockedMergedHead]
        split
        · rename_i hnewer
          have hne : other ≠ id := by
            rintro rfl
            rcases hclosed with hnot | ⟨_, hhead, hle⟩
            · exact hnot List.mem_cons_self
            · cases hhead
              exact absurd (headIsNewer_iff.mp hnewer) (not_lt.mpr hle)
          intro h
          rcases Option.or_eq_some_iff.mp h with h | ⟨_, h⟩
          · exact hrow hne h
          · exact hstart h
        · exact hstart
    · rcases hclosed with hnot | ⟨head, rfl, hle⟩
      · exact .inl fun h => hnot (List.mem_cons_of_mem other h)
      · exact .inr ⟨_, rfl, hle.trans (lockedClosures.advances _ head ▸ le_max_left _ _)⟩

theorem closeAll_source {closed : List String} {start : Option ContentSourceHeadRow}
    (hstart : ∀ head ∈ start, head.sourceIdentityHash = source) :
    ∀ head ∈ closeAll m updatedAt verified source closed start, head.sourceIdentityHash = source := by
  refine fold_source ?_ hstart
  intro row hrow
  obtain ⟨id, _, rfl⟩ := List.mem_map.mp hrow
  rfl

theorem closeAll_append (m : HeadMerge) (before after : List String) (start : Option ContentSourceHeadRow) :
    closeAll m updatedAt verified source (before ++ after) start =
      closeAll m updatedAt verified source after (closeAll m updatedAt verified source before start) := by
  rw [closeAll, closeAll, closeAll, List.map_append, List.foldl_append]

theorem closeAll_cons (m : HeadMerge) (id : String) (closed : List String) (start : Option ContentSourceHeadRow) :
    closeAll m updatedAt verified source (id :: closed) start =
      closeAll m updatedAt verified source closed (m.step start (closureRow updatedAt verified source id)) := rfl

theorem closeAll_eq_none {closed : List String} {start : Option ContentSourceHeadRow}
    (h : closeAll m updatedAt verified source closed start = none) : start = none ∧ closed = [] := by
  have hsome (rows : List ContentSourceHeadRow) (head : ContentSourceHeadRow) :
      rows.foldl m.step (some head) ≠ none := by
    obtain ⟨last, hlast⟩ := fold_some (m := m) head
    rw [hlast]
    exact Option.some_ne_none last
  cases closed with
  | nil => exact ⟨h, rfl⟩
  | cons id closed => exact absurd h (hsome _ _)

theorem closeAll_le {closed : List String} {start : Option ContentSourceHeadRow} {last : ContentSourceHeadRow}
    (h : closeAll m updatedAt verified source closed start = some last) :
    (∀ head ∈ start, headKey head ≤ headKey last) ∧ ∀ id ∈ closed, snapshotKey updatedAt id ≤ headKey last := by
  obtain ⟨hstart, hrows⟩ := fold_le h
  exact ⟨hstart, fun id hid => hrows _ (List.mem_map_of_mem hid)⟩

theorem closeAll_seen {closed : List String} {start : Option ContentSourceHeadRow} {last : ContentSourceHeadRow}
    (h : closeAll m updatedAt verified source closed start = some last) :
    (∃ head ∈ start, headKey last = headKey head) ∨ ∃ id ∈ closed, headKey last = snapshotKey updatedAt id := by
  refine (fold_seen h).imp_right ?_
  rintro ⟨row, hrow, hkey⟩
  obtain ⟨id, hid, rfl⟩ := List.mem_map.mp hrow
  exact ⟨id, hid, hkey⟩

/-- A closure of a verified snapshot that is newer than the head makes it the head and the verified head. -/
theorem step_newest (hm : KeepsVerified m) {start : Option ContentSourceHeadRow} {id : String}
    (hverified : verified id = true) (hstart : ∀ head ∈ start, headKey head < snapshotKey updatedAt id) :
    ∃ head, m.step start (closureRow updatedAt verified source id) = some head ∧
      headKey head = snapshotKey updatedAt id ∧ head.latestVerifiedSnapshotId = some id := by
  cases start with
  | none => exact ⟨_, rfl, rfl, closureRow_verified hverified⟩
  | some head =>
    have hlt := hstart head rfl
    refine ⟨_, rfl, (m.advances _ head).trans (max_eq_right hlt.le), ?_⟩
    have hsome : (closureRow updatedAt verified source id).latestVerifiedSnapshotId.isSome := by
      rw [closureRow_verified hverified]
      rfl
    exact (hm.newer _ _ hsome (headIsNewer_iff.mpr hlt)).trans (closureRow_verified hverified)

theorem laterSnapshot_key (updatedAt : String → Time) (best : Option String) (id : String) :
    (laterSnapshot updatedAt best id).map (snapshotKey updatedAt) =
      some ((best.map (snapshotKey updatedAt)).elim (snapshotKey updatedAt id) (max · (snapshotKey updatedAt id))) := by
  cases best with
  | none => rfl
  | some other =>
    have hlater : (updatedAt other < updatedAt id ∨ updatedAt other = updatedAt id ∧ other < id) ↔
        snapshotKey updatedAt other < snapshotKey updatedAt id := by
      rw [snapshotKey, snapshotKey, Prod.Lex.toLex_lt_toLex]
    change (if (decide _) = true then some id else some other).map (snapshotKey updatedAt) = some (max _ _)
    by_cases h : snapshotKey updatedAt other < snapshotKey updatedAt id
    · rw [if_pos (decide_eq_true (hlater.mpr h)), max_eq_right h.le]
      rfl
    · rw [if_neg (by rwa [decide_eq_true_eq, hlater]), max_eq_left (not_lt.mp h)]
      rfl

theorem laterSnapshot_mem (updatedAt : String → Time) (best : Option String) (id : String) :
    laterSnapshot updatedAt best id = some id ∨ laterSnapshot updatedAt best id = best := by
  rw [laterSnapshot]
  split
  · exact .inl rfl
  · exact .inr rfl

/-- What a pass over snapshots ends with is one of them or where it began, and none is greater. -/
theorem foldl_laterSnapshot (ids : List String) (best : Option String) :
    (ids.foldl (laterSnapshot updatedAt) best = none → best = none ∧ ids = []) ∧
    ∀ id, ids.foldl (laterSnapshot updatedAt) best = some id →
      (best = some id ∨ id ∈ ids) ∧ (∀ other ∈ best, snapshotKey updatedAt other ≤ snapshotKey updatedAt id) ∧
        ∀ other ∈ ids, snapshotKey updatedAt other ≤ snapshotKey updatedAt id := by
  induction ids generalizing best with
  | nil =>
    refine ⟨fun h => ⟨h, rfl⟩, fun id h => ⟨.inl h, fun other hother => ?_, fun other hother => by cases hother⟩⟩
    cases hother.symm.trans h
    exact le_rfl
  | cons first ids ih =>
    rw [List.foldl_cons]
    obtain ⟨hnone, hsome⟩ := ih (laterSnapshot updatedAt best first)
    have hkey := laterSnapshot_key updatedAt best first
    constructor
    · intro h
      rw [(hnone h).1] at hkey
      cases hkey
    · intro id h
      obtain ⟨hmem, hbest, hids⟩ := hsome id h
      obtain ⟨later, hlater⟩ : ∃ later, laterSnapshot updatedAt best first = some later := by
        cases hcase : laterSnapshot updatedAt best first with
        | none =>
          rw [hcase] at hkey
          cases hkey
        | some later => exact ⟨later, rfl⟩
      rw [hlater] at hkey
      have hle := hbest later hlater
      refine ⟨?_, ?_, List.forall_mem_cons.mpr ⟨?_, hids⟩⟩
      · rcases hmem with hmem | hmem
        · rcases laterSnapshot_mem updatedAt best first with hfirst | hsame
          · rw [hfirst] at hmem
            cases hmem
            exact .inr List.mem_cons_self
          · exact .inl (hsame.symm.trans hmem)
        · exact .inr (List.mem_cons_of_mem first hmem)
      · intro other hother
        rw [Option.mem_def] at hother
        rw [hother] at hkey
        exact ((le_max_left _ _).trans (Option.some_inj.mp hkey).ge).trans hle
      · refine le_trans ?_ hle
        cases best with
        | none => exact (Option.some_inj.mp hkey).ge
        | some other => exact (le_max_right _ _).trans (Option.some_inj.mp hkey).ge

theorem greatestVerified_spec {closed : List String} {id : String}
    (h : greatestVerified updatedAt verified closed = some id) :
    id ∈ closed ∧ verified id = true ∧ ∀ other ∈ closed, verified other = true →
      snapshotKey updatedAt other ≤ snapshotKey updatedAt id := by
  obtain ⟨hmem, _, hmax⟩ := (foldl_laterSnapshot (closed.filter verified) none).2 id h
  rcases hmem with hnone | hmem
  · cases hnone
  · obtain ⟨hmem, hverified⟩ := List.mem_filter.mp hmem
    exact ⟨hmem, hverified, fun other hother hv => hmax other (List.mem_filter.mpr ⟨hother, hv⟩)⟩

theorem head_ext {head other : ContentSourceHeadRow} (hsource : head.sourceIdentityHash = other.sourceIdentityHash)
    (hkey : headKey head = headKey other)
    (hverified : head.latestVerifiedSnapshotId = other.latestVerifiedSnapshotId) : head = other := by
  have hpair := toLex_inj.mp hkey
  have hid : head.latestSnapshotId = other.latestSnapshotId := congrArg Prod.snd hpair
  have htime : head.updatedAt = other.updatedAt := congrArg Prod.fst hpair
  cases head
  cases other
  simp_all

/-- With the greatest verified snapshot closed in time, a path ends with it as the verified head. -/
theorem closeAll_greatest (hm : KeepsVerified m) {closed : List String} {start : Option ContentSourceHeadRow}
    (hstart : start.bind (·.latestVerifiedSnapshotId) = none)
    (hintime : ClosedInTime updatedAt verified start closed) :
    (closeAll m updatedAt verified source closed start).bind (·.latestVerifiedSnapshotId) =
      greatestVerified updatedAt verified closed := by
  cases hgreatest : greatestVerified updatedAt verified closed with
  | none =>
    refine closeAll_unverified hm ?_ hstart
    intro id hid hverified
    have hnil := ((foldl_laterSnapshot (closed.filter verified) none).1 hgreatest).2
    exact List.not_mem_nil (hnil ▸ List.mem_filter.mpr ⟨hid, hverified⟩)
  | some id =>
    obtain ⟨hmem, hverified, hmax⟩ := greatestVerified_spec hgreatest
    obtain ⟨before, after, hclosed, hfirst⟩ := List.eq_append_cons_of_mem hmem
    obtain ⟨hhead, hbefore⟩ := hintime before id after hclosed hfirst hgreatest
    have hlt : ∀ head ∈ closeAll m updatedAt verified source before start,
        headKey head < snapshotKey updatedAt id := by
      intro last hlast
      rcases closeAll_seen hlast with ⟨head, hmem, hkey⟩ | ⟨other, hmem, hkey⟩
      · rw [hkey]
        exact hhead head hmem
      · rw [hkey]
        exact hbefore other hmem
    obtain ⟨head, hnewest, hkey, hid⟩ := step_newest (m := m) hm hverified hlt
    have hafter : ∀ other ∈ after, verified other = true → snapshotKey updatedAt other ≤ headKey head := by
      intro other hother hv
      rw [hkey]
      exact hmax other (hclosed ▸ List.mem_append_right _ (List.mem_cons_of_mem id hother)) hv
    rw [hclosed, closeAll_append, closeAll_cons, hnewest]
    obtain ⟨last, hlast⟩ := fold_some (m := m) head
    rw [show closeAll m updatedAt verified source after (some head) = some last from hlast]
    exact (closeAll_kept hm (by rw [hid]; rfl) hafter hlast).trans hid

/-- The verified heads of a source, of which no snapshot was closed before, converge on both paths to the
greatest verified snapshot exactly when this one is closed in time. -/
theorem verified_head_converges_iff (updatedAt : String → Time) (verified : String → Bool) (source : String)
    (closed : List String) (heads : HeadTable)
    (hstart : (heads.get source).bind (·.latestVerifiedSnapshotId) = none) :
    VerifiedConverges updatedAt verified source closed heads ↔
      ClosedInTime updatedAt verified (heads.get source) closed := by
  rw [VerifiedConverges, closeAll_run, closeAll_run]
  constructor
  · rintro ⟨hgreatest, hpaths⟩ before id after hclosed hfirst hid
    by_contra hlate
    -- the locked path then meets a head that is not older, and never takes the snapshot up
    obtain ⟨head, hhead, hle⟩ : ∃ head, closeAll lockedClosures updatedAt verified source before (heads.get source) =
        some head ∧ snapshotKey updatedAt id ≤ headKey head := by
      by_contra hnone
      have hold : ∀ head ∈ closeAll lockedClosures updatedAt verified source before (heads.get source),
          headKey head < snapshotKey updatedAt id :=
        fun head hhead => not_le.mp fun hle => hnone ⟨head, hhead, hle⟩
      cases hbefore : closeAll lockedClosures updatedAt verified source before (heads.get source) with
      | none =>
        obtain ⟨hempty, rfl⟩ := closeAll_eq_none hbefore
        refine hlate ⟨fun head hhead => ?_, fun other hother => (by cases hother)⟩
        rw [hempty] at hhead
        cases hhead
      | some last =>
        obtain ⟨hstartLe, hbeforeLe⟩ := closeAll_le hbefore
        have hlt := hold last hbefore
        exact hlate ⟨fun head hhead => (hstartLe head hhead).trans_lt hlt,
          fun other hother => (hbeforeLe other hother).trans_lt hlt⟩
    have hverified : (closeAll lockedClosures updatedAt verified source before (heads.get source)).bind
        (·.latestVerifiedSnapshotId) ≠ some id := by
      refine closeAll_locked_ne ?_ (.inl hfirst)
      rw [hstart]
      exact (Option.some_ne_none id).symm
    rw [hhead] at hverified
    have hnever : (closeAll lockedClosures updatedAt verified source (id :: after) (some head)).bind
        (·.latestVerifiedSnapshotId) ≠ some id := closeAll_locked_ne hverified (.inr ⟨head, rfl, hle⟩)
    refine hnever ?_
    rw [← hhead, ← closeAll_append, ← hclosed, hpaths, hgreatest, hid]
  · intro hintime
    have hpath (m : HeadMerge) (hm : KeepsVerified m) :
        (closeAll m updatedAt verified source closed (heads.get source)).bind (·.latestVerifiedSnapshotId) =
          greatestVerified updatedAt verified closed := closeAll_greatest hm hstart hintime
    have hsql := hpath closures closures_keepsVerified
    have hlocked := hpath lockedClosures lockedClosures_keepsVerified
    refine ⟨hsql, ?_⟩
    have hkeys : (closeAll lockedClosures updatedAt verified source closed (heads.get source)).map headKey =
        (closeAll closures updatedAt verified source closed (heads.get source)).map headKey :=
      fold_key lockedClosures closures _ rfl
    have hsource : ∀ head ∈ heads.get source, head.sourceIdentityHash = source :=
      fun head hhead => Table.get_key hhead
    cases hl : closeAll lockedClosures updatedAt verified source closed (heads.get source) with
    | none =>
      rw [hl] at hkeys
      exact (Option.map_eq_none_iff.mp hkeys.symm).symm
    | some last =>
      cases hs : closeAll closures updatedAt verified source closed (heads.get source) with
      | none =>
        rw [hl, hs] at hkeys
        cases hkeys
      | some other =>
        rw [hl, hs] at hkeys
        rw [hl] at hlocked
        rw [hs] at hsql
        refine congrArg some (head_ext ?_ (Option.some_inj.mp hkeys) (hlocked.trans hsql.symm))
        exact (closeAll_source hsource last hl).trans (closeAll_source hsource other hs).symm

/-- A snapshot of time two that is verified after an unverified one of time three: the verified head
stays at the first. -/
theorem late_verified_head : ∃ (updatedAt : String → Time) (verified : String → Bool),
    ¬ VerifiedConverges updatedAt verified "source" ["first", "third", "second"] ⟨[], List.nodup_nil⟩ ∧
    ¬ VerifiedConverges updatedAt verified "source" ["third", "second"] ⟨[], List.nodup_nil⟩ := by
  refine ⟨fun id => if id = "first" then 1 else if id = "second" then 2 else 3, (· ≠ "third"), ?_, ?_⟩
  · rintro ⟨hgreatest, _⟩
    revert hgreatest
    decide
  · rintro ⟨_, hpaths⟩
    revert hpaths
    decide

/-- The same snapshots, closed in the order of their times. -/
theorem timely_verified_head :
    ClosedInTime (fun id => if id = "first" then 1 else 2) (fun _ => true) none ["first", "second"] :=
  (verified_head_converges_iff _ _ "source" _ ⟨[], List.nodup_nil⟩ rfl).mp (by
    constructor
    · decide
    · decide)

end Closures
end StockContent.Verification
