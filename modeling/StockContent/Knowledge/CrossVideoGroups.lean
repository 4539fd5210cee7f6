import StockContent.Knowledge.CrossVideo

/-! What the service returns for a unit, and what the writes of a call leave in the relations. -/
namespace StockContent.Knowledge
open Storage Ledger

section Calculate
variable {F : Type} {runtime : WriteRuntime F}

theorem byVideo_items_perm {group group' : List CrossVideoPayload} (h : group.Perm group') :
    ((Dict.groupBy CrossVideoPayload.videoId group).rows.flatMap Prod.snd).Perm
      ((Dict.groupBy CrossVideoPayload.videoId group').rows.flatMap Prod.snd) :=
  (Dict.flatMap_groupBy_perm group).trans (h.trans (Dict.flatMap_groupBy_perm group').symm)

theorem byVideo_length {group group' : List CrossVideoPayload} (h : group.Perm group') :
    (Dict.groupBy CrossVideoPayload.videoId group).rows.length =
      (Dict.groupBy CrossVideoPayload.videoId group').rows.length := by
  have hlength (group : List CrossVideoPayload) : (Dict.groupBy CrossVideoPayload.videoId group).rows.length =
      (group.map (·.videoId)).dedup.length := by
    have hkeys : ((Dict.groupBy CrossVideoPayload.videoId group).rows.map Prod.fst).length =
        (group.map (·.videoId)).dedup.length := (Dict.keys_groupBy_perm group).length_eq
    rwa [List.length_map] at hkeys
  rw [hlength, hlength]
  exact ((h.map _).dedup).length_eq

/-- The values of a group depend on its size and on its supported rows in any order. -/
theorem valuesOf_congr {group group' : List CrossVideoPayload} (hlength : group.length = group'.length)
    (hsupported : (group.filter fun row => supported runtime row.supportStatus).Perm
      (group'.filter fun row => supported runtime row.supportStatus)) :
    valuesOf runtime group = valuesOf runtime group' := by
  have hitems := byVideo_items_perm hsupported
  have hsentiments := hitems.map fun row => orText row.sentiment "NEUTRAL"
  have hevidence := sortedSet_congr fun x => (hitems.flatMap_right (·.evidenceIds)).mem_iff (a := x)
  simp only [valuesOf, hlength, byVideo_length hsupported, hsentiments.count_eq, hsentiments.length_eq, hevidence]

/-- A row whose unit gets values. -/
def shares (runtime : WriteRuntime F) (row : CrossVideoPayload) : Bool :=
  grouped row && supported runtime row.supportStatus

variable {rows group : List CrossVideoPayload}

theorem mem_sharesOf {entry : String × CrossVideoValues F} : entry ∈ sharesOf runtime group ↔
    ∃ row ∈ group, supported runtime row.supportStatus = true ∧ entry = (row.knowledgeUid, valuesOf runtime group) := by
  have hitems (row : CrossVideoPayload) : row ∈ (Dict.groupBy CrossVideoPayload.videoId
      (group.filter fun row => supported runtime row.supportStatus)).rows.flatMap Prod.snd ↔
      row ∈ group ∧ supported runtime row.supportStatus = true := by
    rw [(Dict.flatMap_groupBy_perm _).mem_iff, List.mem_filter]
  rw [sharesOf, List.mem_flatMap]
  constructor
  · intro h
    obtain ⟨items, hmem, hentry⟩ := h
    obtain ⟨row, hrow, rfl⟩ := List.mem_map.mp hentry
    obtain ⟨hgroup, hsupported⟩ := (hitems row).mp (List.mem_flatMap.mpr ⟨items, hmem, hrow⟩)
    exact ⟨row, hgroup, hsupported, rfl⟩
  · intro h
    obtain ⟨row, hgroup, hsupported, rfl⟩ := h
    obtain ⟨items, hmem, hrow⟩ := List.mem_flatMap.mp ((hitems row).mpr ⟨hgroup, hsupported⟩)
    exact ⟨items, hmem, List.mem_map_of_mem hrow⟩

/-- The entries that are put together to the result. -/
def entriesOf (runtime : WriteRuntime F) (rows : List CrossVideoPayload) : List (String × CrossVideoValues F) :=
  (Dict.groupBy groupKey (rows.filter grouped)).rows.flatMap fun group => sharesOf runtime group.2

theorem mem_entriesOf {entry : String × CrossVideoValues F} : entry ∈ entriesOf runtime rows ↔
    ∃ row ∈ rows, shares runtime row = true ∧
      entry = (row.knowledgeUid, valuesOf runtime ((rows.filter grouped).filter (groupKey · = groupKey row))) := by
  rw [entriesOf, List.mem_flatMap]
  constructor
  · intro h
    obtain ⟨group, hgroup, hentry⟩ := h
    obtain ⟨hrows, _⟩ := Dict.mem_groupBy.mp hgroup
    obtain ⟨row, hrow, hsupported, rfl⟩ := mem_sharesOf.mp hentry
    rw [hrows] at hrow
    obtain ⟨hmem, hkey⟩ := List.mem_filter.mp hrow
    obtain ⟨hmem, hgrouped⟩ := List.mem_filter.mp hmem
    refine ⟨row, hmem, Bool.and_eq_true_iff.mpr ⟨hgrouped, hsupported⟩, ?_⟩
    rw [hrows, of_decide_eq_true hkey]
  · intro h
    obtain ⟨row, hmem, hshares, rfl⟩ := h
    obtain ⟨hgrouped, hsupported⟩ := Bool.and_eq_true_iff.mp hshares
    have hrow : row ∈ (rows.filter grouped).filter (groupKey · = groupKey row) :=
      List.mem_filter.mpr ⟨List.mem_filter.mpr ⟨hmem, hgrouped⟩, by simp⟩
    exact ⟨(groupKey row, _), Dict.mem_groupBy.mpr ⟨rfl, List.ne_nil_of_mem hrow⟩,
      mem_sharesOf.mpr ⟨row, hrow, hsupported, rfl⟩⟩

/-- A row that shares gets the values of its group. -/
theorem lookup_calculate (hn : (rows.map (·.knowledgeUid)).Nodup) {row : CrossVideoPayload} (hrow : row ∈ rows)
    (hshares : shares runtime row = true) : (calculate runtime rows).lookup row.knowledgeUid =
      some (valuesOf runtime ((rows.filter grouped).filter (groupKey · = groupKey row))) := by
  have hentry := mem_entriesOf.mpr ⟨row, hrow, hshares, rfl⟩
  have honly : ∀ entry ∈ entriesOf runtime rows, entry.1 = row.knowledgeUid →
      entry = (row.knowledgeUid, valuesOf runtime ((rows.filter grouped).filter (groupKey · = groupKey row))) := by
    intro entry hentry hkey
    obtain ⟨other, hother, _, rfl⟩ := mem_entriesOf.mp hentry
    rw [List.inj_on_of_nodup_map hn hother hrow hkey]
  have hget := Table.get_putAll_of_mem (Table.empty : Dict String (CrossVideoValues F)) hentry honly
  rw [Dict.lookup, calculate, ← entriesOf, hget]
  rfl

theorem lookup_calculate_none {knowledgeUid : String}
    (h : ∀ row ∈ rows, row.knowledgeUid = knowledgeUid → shares runtime row = false) :
    (calculate runtime rows).lookup knowledgeUid = none := by
  have hfree : knowledgeUid ∉ (entriesOf runtime rows).map Prod.fst := by
    intro hmem
    obtain ⟨entry, hentry, hkey⟩ := List.mem_map.mp hmem
    obtain ⟨row, hrow, hshares, rfl⟩ := mem_entriesOf.mp hentry
    rw [h row hrow hkey] at hshares
    cases hshares
  rw [Dict.lookup, calculate, ← entriesOf, Table.get_putAll_of_not_mem _ hfree]
  rfl

theorem lookup_calculate_perm {rows' : List CrossVideoPayload} (h : rows.Perm rows')
    (hn : (rows.map (·.knowledgeUid)).Nodup) (knowledgeUid : String) :
    (calculate runtime rows).lookup knowledgeUid = (calculate runtime rows').lookup knowledgeUid := by
  have hn' : (rows'.map (·.knowledgeUid)).Nodup := (h.map _).nodup_iff.mp hn
  by_cases hrow : ∃ row ∈ rows, row.knowledgeUid = knowledgeUid ∧ shares runtime row = true
  · obtain ⟨row, hrow, rfl, hshares⟩ := hrow
    have hgroup := ((h.filter grouped).filter (groupKey · = groupKey row))
    rw [lookup_calculate hn hrow hshares, lookup_calculate hn' (h.mem_iff.mp hrow) hshares]
    exact congrArg some (valuesOf_congr hgroup.length_eq (hgroup.filter _))
  · have hnone : ∀ row ∈ rows, row.knowledgeUid = knowledgeUid → shares runtime row = false :=
      fun row hmem hkey => Bool.eq_false_iff.mpr fun hshares => hrow ⟨row, hmem, hkey, hshares⟩
    rw [lookup_calculate_none hnone, lookup_calculate_none fun row hmem => hnone row (h.mem_iff.mpr hmem)]

end Calculate

section Writes
variable {F : Type} {runtime : WriteRuntime F}

/-- The last of the units with an id. -/
def lastOf : List KnowledgeUnit → String → Option KnowledgeUnit
  | [], _ => none
  | unit :: units, knowledgeUid =>
    (lastOf units knowledgeUid).or (if unit.knowledgeUid = knowledgeUid then some unit else none)

variable {units : List KnowledgeUnit} {knowledgeUid : String}

theorem lastOf_eq_none : lastOf units knowledgeUid = none ↔ knowledgeUid ∉ units.map (·.knowledgeUid) := by
  induction units with
  | nil => simp [lastOf]
  | cons unit units ih =>
    rw [lastOf, Option.or_eq_none_iff, ih, List.map_cons, List.mem_cons, not_or, and_comm]
    simp [eq_comm]

theorem lastOf_eq_some {unit : KnowledgeUnit} (h : lastOf units knowledgeUid = some unit) :
    unit ∈ units ∧ unit.knowledgeUid = knowledgeUid := by
  induction units with
  | nil => cases h
  | cons first units ih =>
    rcases Option.or_eq_some_iff.mp h with h | h
    · exact (ih h).imp_left (List.mem_cons_of_mem first)
    · have hif := h.2
      split at hif
      · rename_i hkey
        cases hif
        exact ⟨List.mem_cons_self, hkey⟩
      · cases hif

/-- The units that are to be active after a call: those of other videos, and what comes in last. -/
def standing (call : ReplaceCall) (before : List KnowledgeUnit) : List KnowledgeUnit :=
  ((before.filter (·.videoId ≠ call.videoId) ++
    call.units.filter fun unit => lastOf call.units unit.knowledgeUid = some unit).filter
      (·.lifecycleStatus = "ACTIVE")).dedup

theorem mem_standing {call : ReplaceCall} {before : List KnowledgeUnit} {row : KnowledgeUnit} :
    row ∈ standing call before ↔ row.lifecycleStatus = "ACTIVE" ∧
      ((row ∈ before ∧ row.videoId ≠ call.videoId) ∨ lastOf call.units row.knowledgeUid = some row) := by
  rw [standing, List.mem_dedup, List.mem_filter, List.mem_append, List.mem_filter, List.mem_filter, and_comm]
  have hlast : (row ∈ call.units ∧ decide (lastOf call.units row.knowledgeUid = some row) = true) ↔
      lastOf call.units row.knowledgeUid = some row :=
    ⟨fun h => of_decide_eq_true h.2, fun h => ⟨(lastOf_eq_some h).1, decide_eq_true h⟩⟩
  rw [hlast, decide_eq_true_iff, decide_eq_true_iff]

def evidenceOf (evidence : EvidenceTable) (knowledgeUid : String) : List KnowledgeEvidenceRow :=
  evidence.rows.filter (·.knowledgeUid = knowledgeUid)

theorem addEvidence_frame {videoId other : String} {evidence evidence' : EvidenceTable} {item : Json}
    (h : addEvidence runtime knowledgeUid videoId evidence item = .ok evidence') (hother : other ≠ knowledgeUid) :
    evidenceOf evidence' other = evidenceOf evidence other := by
  obtain ⟨row, hrow, h⟩ := bind_eq_ok.mp h
  have huid : row.knowledgeUid = knowledgeUid := by
    obtain ⟨fields, _, hrow⟩ := bind_eq_ok.mp (mapError_eq_ok.mp hrow)
    obtain ⟨structured, _, hrow⟩ := bind_eq_ok.mp hrow
    cases hrow
    rfl
  cases hinsert : evidence.insert row with
  | none =>
    rw [hinsert] at h
    cases h
  | some inserted =>
    rw [hinsert] at h
    cases h
    rw [evidenceOf, (Table.insert_eq_some hinsert).2, List.filter_append,
      List.filter_cons_of_neg (by simpa [huid] using hother.symm), List.filter_nil, List.append_nil]
    rfl

theorem evidence_frame {videoId other : String} {items : List Json} {evidence evidence' : EvidenceTable}
    (h : items.foldlM (addEvidence runtime knowledgeUid videoId) evidence = .ok evidence')
    (hother : other ≠ knowledgeUid) : evidenceOf evidence' other = evidenceOf evidence other := by
  induction items generalizing evidence with
  | nil =>
    cases h
    rfl
  | cons item items ih =>
    rw [List.foldlM_cons] at h
    obtain ⟨next, hnext, h⟩ := bind_eq_ok.mp h
    exact (ih h).trans (addEvidence_frame hnext hother)

/-- What the writes of some units leave behind. -/
structure Wrote (existing : List String) (units : List KnowledgeUnit) (db db' : CrossVideoDb F) : Prop where
  cross : db'.cross = db.cross
  evidence : ∀ other ∉ units.map (·.knowledgeUid), evidenceOf db'.evidence other = evidenceOf db.evidence other
  get : ∀ knowledgeUid, db'.units.get knowledgeUid = (lastOf units knowledgeUid).or (db.units.get knowledgeUid)
  fresh : ∀ knowledgeUid ∈ units.map (·.knowledgeUid), knowledgeUid ∉ existing → db.units.get knowledgeUid = none

variable {db db' db'' : CrossVideoDb F} {existing : List String}

theorem writeUnit_wrote {videoId : String} {unit : KnowledgeUnit} (hstored : ∀ k ∈ existing, db.units.get k ≠ none)
    (h : writeUnit runtime videoId existing db unit = .ok db') : Wrote existing [unit] db db' := by
  obtain ⟨units, hunits, h⟩ := bind_eq_ok.mp h
  obtain ⟨items, _, h⟩ := bind_eq_ok.mp h
  obtain ⟨evidence, hevidence, h⟩ := bind_eq_ok.mp h
  cases h
  have hget : (∀ k, units.get k = if unit.knowledgeUid = k then some unit else db.units.get k) ∧
      (unit.knowledgeUid ∉ existing → db.units.get unit.knowledgeUid = none) := by
    rw [storeUnit] at hunits
    split at hunits
    · rename_i hexisting
      cases hunits
      obtain ⟨old, hold⟩ := Option.ne_none_iff_exists'.mp (hstored _ hexisting)
      refine ⟨fun k => ?_, fun h => absurd hexisting h⟩
      by_cases hk : unit.knowledgeUid = k
      · rw [if_pos hk, ← hk]
        exact Table.get_update_self hold
      · rw [if_neg hk]
        exact Table.get_update_ne _ hk
    · cases hinsert : db.units.insert unit with
      | none =>
        rw [hinsert] at hunits
        cases hunits
      | some inserted =>
        rw [hinsert] at hunits
        cases hunits
        exact ⟨Table.get_insert hinsert, fun _ => (Table.insert_eq_some hinsert).1⟩
  refine ⟨rfl, fun other hother => ?_, fun k => ?_, ?_⟩
  · have hne : other ≠ unit.knowledgeUid := fun h => hother (List.mem_singleton.mpr h)
    rw [evidence_frame hevidence hne]
    simp only [evidenceOf, Table.keep, List.filter_filter]
    apply List.filter_congr
    intro row _
    by_cases hrow : row.knowledgeUid = other <;> simp [hrow, hne]
  · rw [hget.1]
    change _ = (if unit.knowledgeUid = k then some unit else none).or (db.units.get k)
    split <;> rfl
  · intro k hk
    obtain rfl := List.mem_singleton.mp hk
    exact hget.2

theorem writes_wrote {videoId : String} {units : List KnowledgeUnit} (hstored : ∀ k ∈ existing, db.units.get k ≠ none)
    (h : units.foldlM (writeUnit runtime videoId existing) db = .ok db') : Wrote existing units db db' := by
  induction units generalizing db with
  | nil =>
    cases h
    exact ⟨rfl, fun _ _ => rfl, fun _ => rfl, fun _ h => by cases h⟩
  | cons unit units ih =>
    rw [List.foldlM_cons] at h
    obtain ⟨next, hnext, h⟩ := bind_eq_ok.mp h
    have hfirst := writeUnit_wrote hstored hnext
    have hkept : ∀ k, next.units.get k = (if unit.knowledgeUid = k then some unit else none).or (db.units.get k) :=
      hfirst.get
    have hrest : Wrote existing units next db' := by
      refine ih (fun k hk hnone => ?_) h
      rw [hkept] at hnone
      exact hstored k hk (Option.or_eq_none_iff.mp hnone).2
    refine ⟨hrest.cross.trans hfirst.cross, fun other hother => ?_, fun k => ?_, fun k hk hexisting => ?_⟩
    · obtain ⟨hunit, hunits⟩ := not_or.mp (mt List.mem_cons.mpr hother)
      exact (hrest.evidence other hunits).trans (hfirst.evidence other (mt List.mem_singleton.mp hunit))
    · rw [hrest.get, hkept, lastOf, Option.or_assoc]
    · rcases List.mem_cons.mp hk with rfl | hk
      · exact hfirst.fresh _ (List.mem_singleton_self _) hexisting
      · have hnone := hrest.fresh k hk hexisting
        rw [hkept] at hnone
        exact (Option.or_eq_none_iff.mp hnone).2

theorem superseded_not_active (row : KnowledgeUnit) : (superseded row).lifecycleStatus ≠ "ACTIVE" := by
  change "SUPERSEDED" ≠ "ACTIVE"
  decide

theorem mem_existing {call : ReplaceCall} {r : KnowledgeUnit} (hr : r ∈ db.units.rows) :
    r.knowledgeUid ∈ (db.units.rows.filter (·.videoId = call.videoId)).map (·.knowledgeUid) ↔
      r.videoId = call.videoId := by
  rw [List.mem_map]
  constructor
  · intro h
    obtain ⟨q, hq, hkey⟩ := h
    obtain ⟨hq, hvideo⟩ := List.mem_filter.mp hq
    rw [← List.inj_on_of_nodup_map db.units.unique hq hr hkey]
    exact of_decide_eq_true hvideo
  · exact fun hvideo => ⟨r, List.mem_filter.mpr ⟨hr, decide_eq_true hvideo⟩, rfl⟩

/-- The stored units of the video that do not come again. -/
def leaving (call : ReplaceCall) (units : KnowledgeUnitTable) : List String :=
  ((units.rows.filter (·.videoId = call.videoId)).map (·.knowledgeUid)).filter
    (· ∉ call.units.map (·.knowledgeUid))

theorem get_superseded (call : ReplaceCall) (units : KnowledgeUnitTable) (k : String) :
    (units.modifyEach (leaving call units) superseded).get k =
      (units.get k).map fun r => if k ∈ leaving call units then superseded r else r :=
  Table.get_modifyEach units _ superseded (fun _ => rfl) k

theorem writeUnits_wrote {call : ReplaceCall} (h : writeUnits runtime call db = .ok db') :
    Wrote ((db.units.rows.filter (·.videoId = call.videoId)).map (·.knowledgeUid)) call.units
      { db with units := db.units.modifyEach (leaving call db.units) superseded } db' := by
  refine writes_wrote (fun k hk hnone => ?_) h
  obtain ⟨r, hr, rfl⟩ := List.mem_map.mp hk
  rw [get_superseded, Table.get_of_mem (List.mem_of_mem_filter hr)] at hnone
  cases hnone

/-- After the writes the active rows are the standing units. -/
theorem mem_activeRows_written {call : ReplaceCall} (h : writeUnits runtime call db = .ok db') {row : KnowledgeUnit} :
    row ∈ activeRows db'.units ↔ row ∈ standing call db.units.rows := by
  have hwrote := writeUnits_wrote h
  have hget := hwrote.get row.knowledgeUid
  rw [get_superseded] at hget
  have hrow : row ∈ db'.units.rows ↔ db'.units.get row.knowledgeUid = some row :=
    ⟨Table.get_of_mem, Table.mem_of_get⟩
  rw [activeRows, List.mem_filter, mem_standing, and_comm, decide_eq_true_iff, hrow, hget]
  refine and_congr_right fun hactive => ?_
  cases hlast : lastOf call.units row.knowledgeUid with
  | some unit =>
    rw [Option.some_or]
    refine ⟨Or.inr, fun h => h.resolve_left fun hother => ?_⟩
    -- a unit with the id of a row of another video cannot be stored
    have hincoming : row.knowledgeUid ∈ call.units.map (·.knowledgeUid) := by
      obtain ⟨hmem, hkey⟩ := lastOf_eq_some hlast
      exact List.mem_map.mpr ⟨unit, hmem, hkey⟩
    have hfree := hwrote.fresh _ hincoming (mt (mem_existing hother.1).mp hother.2)
    rw [get_superseded, Table.get_of_mem hother.1] at hfree
    cases hfree
  | none =>
    rw [Option.none_or, or_iff_left nofun, Option.map_eq_some_iff]
    constructor
    · intro h
      obtain ⟨stored, hget, hrow⟩ := h
      have hsame : stored = row := by
        split at hrow
        · rw [← hrow] at hactive
          exact absurd hactive (superseded_not_active stored)
        · exact hrow
      subst hsame
      have hmem := Table.mem_of_get hget
      refine ⟨hmem, fun hvideo => ?_⟩
      rw [if_pos] at hrow
      · rw [← hrow] at hactive
        exact absurd hactive (superseded_not_active stored)
      · exact List.mem_filter.mpr ⟨(mem_existing hmem).mpr hvideo, by simpa using lastOf_eq_none.mp hlast⟩
    · intro h
      obtain ⟨hmem, hvideo⟩ := h
      refine ⟨row, Table.get_of_mem hmem, if_neg fun hin => ?_⟩
      exact hvideo ((mem_existing hmem).mp (List.mem_of_mem_filter hin))

end Writes
end StockContent.Knowledge
