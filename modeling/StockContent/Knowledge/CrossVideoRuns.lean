import StockContent.Knowledge.CrossVideoGroups

/-! What is stored about the groups, compared with what the service computes on all active rows, after any calls. -/
namespace StockContent.Knowledge
open Storage

section Consistency
variable {F : Type} (runtime : WriteRuntime F)

/-- `ACTIVE` and source-supported. -/
def counted (row : KnowledgeUnit) : Bool := row.lifecycleStatus = "ACTIVE" && supported runtime row.supportStatus

def unitGroup (row : KnowledgeUnit) : String × String := (row.subjectKey.getD "", row.predicateKey.getD "")

/-- Counted, with a subject key: such a unit gets values. -/
def sharing (row : KnowledgeUnit) : Bool := counted runtime row && (unitGroup row).1 ≠ ""

def activePayload (db : CrossVideoDb F) : List CrossVideoPayload := (activeRows db.units).map (payloadOf db.evidence)

/-- What is stored for a counted unit is what the service returns on all the active rows, in whichever order, and
nothing is stored for other units. -/
structure CrossVideoConsistent (db : CrossVideoDb F) : Prop where
  current : ∀ row ∈ db.units.rows, counted runtime row = true → ∀ payload, payload.Perm (activePayload db) →
    db.cross.get row.knowledgeUid =
      ((calculate runtime payload).lookup row.knowledgeUid).map (crossVideoRow row.knowledgeUid)
  others : ∀ row ∈ db.units.rows, counted runtime row = false → db.cross.get row.knowledgeUid = none

def groupRows (rows : List KnowledgeUnit) (group : String × String) : List KnowledgeUnit :=
  rows.filter (unitGroup · = group)

/-- A sharing unit stays so, and a group with a sharing unit either is computed again with all its rows, or has the
same sharing units as before, as many rows, and none of the sharing ones is computed again. -/
structure GroupsRefreshed (call : ReplaceCall) (before : List KnowledgeUnit) : Prop where
  kept : ∀ row ∈ before, sharing runtime row = true →
    ∃ next ∈ standing call before, next.knowledgeUid = row.knowledgeUid ∧ sharing runtime next = true
  groups : ∀ row ∈ standing call before, sharing runtime row = true →
    (∀ other ∈ groupRows (standing call before) (unitGroup row), affected call.units other = true) ∨
    ((groupRows (standing call before) (unitGroup row)).length =
        (groupRows (before.filter (·.lifecycleStatus = "ACTIVE")) (unitGroup row)).length ∧
      (∀ other, sharing runtime other = true → unitGroup other = unitGroup row →
        (other ∈ standing call before ↔ other ∈ before)) ∧
      ∀ other ∈ groupRows (standing call before) (unitGroup row), sharing runtime other = true →
        affected call.units other = false)

/-- What is stored is of the groups of the active rows. -/
structure CrossVideoInv (db : CrossVideoDb F) : Prop where
  shared : ∀ row ∈ activeRows db.units, sharing runtime row = true → db.cross.get row.knowledgeUid =
    some (crossVideoRow row.knowledgeUid
      (valuesOf runtime ((groupRows (activeRows db.units) (unitGroup row)).map (payloadOf db.evidence))))
  free : ∀ knowledgeUid, (∀ row ∈ activeRows db.units, row.knowledgeUid = knowledgeUid → sharing runtime row = false) →
    db.cross.get knowledgeUid = none

variable {runtime} {db : CrossVideoDb F} {call : ReplaceCall}

theorem activeRows_nodup (units : KnowledgeUnitTable) : ((activeRows units).map (·.knowledgeUid)).Nodup :=
  units.unique.sublist (List.filter_sublist.map _)

/-- A group of the payloads of active rows is the payload of a group. -/
theorem group_payload {rows : List KnowledgeUnit} (hactive : ∀ row ∈ rows, row.lifecycleStatus = "ACTIVE")
    (evidence : EvidenceTable) {group : String × String} (hgroup : group.1 ≠ "") :
    ((rows.map (payloadOf evidence)).filter grouped).filter (groupKey · = group) =
      (groupRows rows group).map (payloadOf evidence) := by
  rw [List.filter_filter, List.filter_map, groupRows]
  congr 1
  apply List.filter_congr
  intro row hrow
  change (decide (unitGroup row = group) &&
    (decide ((unitGroup row).1 ≠ "") && decide (row.lifecycleStatus = "ACTIVE"))) = _
  by_cases h : unitGroup row = group
  · simp [h, hgroup, hactive row hrow]
  · simp [h]

theorem shares_payload {row : KnowledgeUnit} (evidence : EvidenceTable) :
    shares runtime (payloadOf evidence row) = sharing runtime row := by
  change ((decide ((unitGroup row).1 ≠ "") && decide (row.lifecycleStatus = "ACTIVE")) &&
    supported runtime row.supportStatus) = _
  rw [sharing, counted, Bool.and_assoc, Bool.and_comm]

theorem sharing_group {row : KnowledgeUnit} (h : sharing runtime row = true) : (unitGroup row).1 ≠ "" :=
  of_decide_eq_true (Bool.and_eq_true_iff.mp h).2

theorem sharing_active {row : KnowledgeUnit} (h : sharing runtime row = true) : row.lifecycleStatus = "ACTIVE" :=
  of_decide_eq_true (Bool.and_eq_true_iff.mp (Bool.and_eq_true_iff.mp h).1).1

/-- The values that the service returns for a unit, from the payload of some of the active rows. -/
theorem lookup_payload {rows : List KnowledgeUnit} (hactive : ∀ row ∈ rows, row.lifecycleStatus = "ACTIVE")
    (hn : (rows.map (·.knowledgeUid)).Nodup) (evidence : EvidenceTable) {row : KnowledgeUnit} (hrow : row ∈ rows)
    (hsharing : sharing runtime row = true) :
    (calculate runtime (rows.map (payloadOf evidence))).lookup row.knowledgeUid =
      some (valuesOf runtime ((groupRows rows (unitGroup row)).map (payloadOf evidence))) := by
  have hnodup : ((rows.map (payloadOf evidence)).map (·.knowledgeUid)).Nodup := by
    rw [List.map_map]
    exact hn
  have hlookup := lookup_calculate hnodup (List.mem_map_of_mem hrow) ((shares_payload evidence).trans hsharing)
  rw [← group_payload hactive evidence (sharing_group hsharing)]
  exact hlookup

theorem lookup_payload_none {rows : List KnowledgeUnit} (evidence : EvidenceTable) {knowledgeUid : String}
    (h : ∀ row ∈ rows, row.knowledgeUid = knowledgeUid → sharing runtime row = false) :
    (calculate runtime (rows.map (payloadOf evidence))).lookup knowledgeUid = none := by
  refine lookup_calculate_none fun payload hpayload hkey => ?_
  obtain ⟨row, hrow, rfl⟩ := List.mem_map.mp hpayload
  rw [shares_payload]
  exact h row hrow hkey

theorem mem_activeRows {units : KnowledgeUnitTable} {row : KnowledgeUnit} :
    row ∈ activeRows units ↔ row ∈ units.rows ∧ row.lifecycleStatus = "ACTIVE" := by
  rw [activeRows, List.mem_filter, decide_eq_true_iff]

theorem activePayload_nodup (db : CrossVideoDb F) : ((activePayload db).map (·.knowledgeUid)).Nodup := by
  rw [activePayload, List.map_map]
  exact activeRows_nodup db.units

theorem CrossVideoInv.consistent (h : CrossVideoInv runtime db) : CrossVideoConsistent runtime db := by
  have hactive : ∀ row ∈ activeRows db.units, row.lifecycleStatus = "ACTIVE" :=
    fun row hrow => (mem_activeRows.mp hrow).2
  have honly {row other : KnowledgeUnit} (hrow : row ∈ db.units.rows) (hother : other ∈ activeRows db.units)
      (hkey : other.knowledgeUid = row.knowledgeUid) : other = row :=
    List.inj_on_of_nodup_map db.units.unique (mem_activeRows.mp hother).1 hrow hkey
  refine ⟨fun row hrow hcounted payload hpayload => ?_, fun row hrow hcounted => ?_⟩
  · have hmem : row ∈ activeRows db.units :=
      mem_activeRows.mpr ⟨hrow, of_decide_eq_true (Bool.and_eq_true_iff.mp hcounted).1⟩
    rw [lookup_calculate_perm hpayload ((hpayload.map _).nodup_iff.mpr (activePayload_nodup db))]
    cases hsharing : sharing runtime row with
    | true =>
      rw [activePayload, lookup_payload hactive (activeRows_nodup db.units) db.evidence hmem hsharing]
      exact h.shared row hmem hsharing
    | false =>
      have hnone : ∀ other ∈ activeRows db.units, other.knowledgeUid = row.knowledgeUid →
          sharing runtime other = false := by
        intro other hother hkey
        rw [honly hrow hother hkey]
        exact hsharing
      rw [activePayload, lookup_payload_none db.evidence hnone]
      exact h.free row.knowledgeUid hnone
  · refine h.free row.knowledgeUid fun other hother hkey => ?_
    rw [honly hrow hother hkey, sharing, hcounted, Bool.false_and]

/-- The payload that a call computes on. -/
def refreshedPayload (call : ReplaceCall) (db : CrossVideoDb F) : List CrossVideoPayload :=
  ((call.scan (activeRows db.units)).filter (affected call.units)).map (payloadOf db.evidence)

theorem get_refresh (call : ReplaceCall) (db : CrossVideoDb F) (knowledgeUid : String) :
    (refreshCrossVideo runtime call db).cross.get knowledgeUid =
      (((calculate runtime (refreshedPayload call db)).lookup knowledgeUid).map (crossVideoRow knowledgeUid)).or
        (db.cross.get knowledgeUid) := by
  change (db.cross.putAll ((calculate runtime (refreshedPayload call db)).rows.map
    fun entry => crossVideoRow entry.1 entry.2)).get knowledgeUid = _
  generalize calculate runtime (refreshedPayload call db) = result
  cases hlookup : result.lookup knowledgeUid with
  | some values =>
    have hmem := List.mem_map_of_mem (f := fun entry => crossVideoRow entry.1 entry.2) (Dict.lookup_eq_some.mp hlookup)
    refine Table.get_putAll_of_mem db.cross hmem fun row hrow hkey => ?_
    obtain ⟨entry, hentry, rfl⟩ := List.mem_map.mp hrow
    have hsame := List.inj_on_of_nodup_map result.unique hentry (Dict.lookup_eq_some.mp hlookup) hkey
    rw [hsame]
  | none =>
    refine Table.get_putAll_of_not_mem db.cross fun hmem => ?_
    rw [List.map_map, List.mem_map] at hmem
    obtain ⟨entry, hentry, hkey⟩ := hmem
    have hsome : result.lookup knowledgeUid = some entry.2 := by
      rw [← hkey]
      exact Dict.lookup_eq_some.mpr hentry
    rw [hlookup] at hsome
    cases hsome

variable {written : CrossVideoDb F}

theorem activeRows_written_perm (h : writeUnits runtime call db = .ok written) :
    (activeRows written.units).Perm (standing call db.units.rows) := by
  refine (List.perm_ext_iff_of_nodup ?_ (List.nodup_dedup _)).mpr fun row => mem_activeRows_written h
  exact (activeRows_nodup written.units).of_map _

/-- An active row whose key is not affected is of another video, and its evidence stays. -/
theorem evidence_of_unaffected (h : writeUnits runtime call db = .ok written) {row : KnowledgeUnit}
    (hrow : row ∈ activeRows written.units) (haffected : affected call.units row = false) :
    payloadOf written.evidence row = payloadOf db.evidence row := by
  have hincoming : row.knowledgeUid ∉ call.units.map (·.knowledgeUid) := by
    intro hin
    obtain ⟨unit, hunit⟩ := Option.ne_none_iff_exists'.mp (mt lastOf_eq_none.mp (not_not.mpr hin))
    have hget := (writeUnits_wrote h).get row.knowledgeUid
    rw [hunit, Option.some_or, Table.get_of_mem (mem_activeRows.mp hrow).1] at hget
    cases hget
    have hmem := List.mem_map_of_mem (f := affectedKey) (lastOf_eq_some hunit).1
    exact absurd (decide_eq_true hmem) (Bool.eq_false_iff.mp haffected)
  have hevidence := (writeUnits_wrote h).evidence row.knowledgeUid hincoming
  simp only [evidenceOf] at hevidence
  simp only [payloadOf, hevidence]

theorem mem_supported {units : KnowledgeUnitTable} {group : String × String} (hgroup : group.1 ≠ "")
    {row : KnowledgeUnit} :
    row ∈ (groupRows (activeRows units) group).filter (fun row => supported runtime row.supportStatus) ↔
      row ∈ activeRows units ∧ unitGroup row = group ∧ sharing runtime row = true := by
  rw [List.mem_filter, groupRows, List.mem_filter, decide_eq_true_iff, and_assoc]
  refine and_congr_right fun hrow => and_congr_right fun hkey => ?_
  rw [sharing, counted, hkey, decide_eq_true (mem_activeRows.mp hrow).2, Bool.true_and, decide_eq_true hgroup,
    Bool.and_true]

theorem filter_payload (rows : List KnowledgeUnit) (evidence : EvidenceTable) :
    (rows.map (payloadOf evidence)).filter (fun row => supported runtime row.supportStatus) =
      (rows.filter fun row => supported runtime row.supportStatus).map (payloadOf evidence) := by
  induction rows with
  | nil => rfl
  | cons row rows ih =>
    have hrow : (payloadOf evidence row).supportStatus = row.supportStatus := rfl
    rw [List.map_cons, List.filter_cons, List.filter_cons, ih, hrow]
    cases supported runtime row.supportStatus <;> rfl

/-- A group that is not computed again keeps its values. -/
theorem valuesOf_unaffected (h : writeUnits runtime call db = .ok written) {group : String × String}
    (hgroup : group.1 ≠ "")
    (hlength : (groupRows (standing call db.units.rows) group).length = (groupRows (activeRows db.units) group).length)
    (hsame : ∀ other, sharing runtime other = true → unitGroup other = group →
      (other ∈ standing call db.units.rows ↔ other ∈ db.units.rows))
    (hunaffected : ∀ other ∈ groupRows (standing call db.units.rows) group, sharing runtime other = true →
      affected call.units other = false) :
    valuesOf runtime ((groupRows (activeRows written.units) group).map (payloadOf written.evidence)) =
      valuesOf runtime ((groupRows (activeRows db.units) group).map (payloadOf db.evidence)) := by
  have hperm := activeRows_written_perm h
  have hnodup (units : KnowledgeUnitTable) :
      ((groupRows (activeRows units) group).filter fun row => supported runtime row.supportStatus).Nodup :=
    (((activeRows_nodup units).of_map _).filter _).filter _
  have hrows : ((groupRows (activeRows written.units) group).filter fun row => supported runtime row.supportStatus).Perm
      ((groupRows (activeRows db.units) group).filter fun row => supported runtime row.supportStatus) := by
    refine (List.perm_ext_iff_of_nodup (hnodup _) (hnodup _)).mpr fun row => ?_
    rw [mem_supported hgroup, mem_supported hgroup, hperm.mem_iff]
    constructor
    · intro hrow
      obtain ⟨hmem, hkey, hshares⟩ := hrow
      exact ⟨mem_activeRows.mpr ⟨(hsame row hshares hkey).mp hmem, sharing_active hshares⟩, hkey, hshares⟩
    · intro hrow
      obtain ⟨hmem, hkey, hshares⟩ := hrow
      exact ⟨(hsame row hshares hkey).mpr (mem_activeRows.mp hmem).1, hkey, hshares⟩
  apply valuesOf_congr
  · rw [List.length_map, List.length_map, ← hlength]
    exact (hperm.filter _).length_eq
  · rw [filter_payload, filter_payload]
    have hevidence : ((groupRows (activeRows written.units) group).filter fun row =>
        supported runtime row.supportStatus).map (payloadOf written.evidence) =
        ((groupRows (activeRows written.units) group).filter fun row =>
        supported runtime row.supportStatus).map (payloadOf db.evidence) := by
      apply List.map_congr_left
      intro row hrow
      obtain ⟨hmem, hkey, hshares⟩ := (mem_supported hgroup).mp hrow
      have hstanding : row ∈ groupRows (standing call db.units.rows) group :=
        List.mem_filter.mpr ⟨hperm.mem_iff.mp hmem, decide_eq_true hkey⟩
      exact evidence_of_unaffected h hmem (hunaffected row hstanding hshares)
    rw [hevidence]
    exact hrows.map _

theorem CrossVideoInv.refresh (hinv : CrossVideoInv runtime db) (h : writeUnits runtime call db = .ok written)
    (hgroups : GroupsRefreshed runtime call db.units.rows) :
    CrossVideoInv runtime (refreshCrossVideo runtime call written) := by
  have hperm := activeRows_written_perm h
  have hscan := call.scan_perm (activeRows written.units)
  have hcross := (writeUnits_wrote h).cross
  -- the rows of the payload are active rows, and their ids are distinct
  have hmem {row : KnowledgeUnit} : row ∈ (call.scan (activeRows written.units)).filter (affected call.units) ↔
      row ∈ activeRows written.units ∧ affected call.units row = true := by
    rw [List.mem_filter, hscan.mem_iff]
  have hnodup : (((call.scan (activeRows written.units)).filter (affected call.units)).map (·.knowledgeUid)).Nodup :=
    ((hscan.map _).nodup_iff.mpr (activeRows_nodup written.units)).sublist (List.filter_sublist.map _)
  constructor
  · intro row hrow hsharing
    have hstanding := hperm.mem_iff.mp hrow
    rw [get_refresh]
    rcases hgroups.groups row hstanding hsharing with hall | hsame
    · have hself := hall row (List.mem_filter.mpr ⟨hstanding, by simp⟩)
      have hlookup := lookup_payload (fun other hother => (mem_activeRows.mp (hmem.mp hother).1).2) hnodup
        written.evidence (hmem.mpr ⟨hrow, hself⟩) hsharing
      have hgroup : (groupRows ((call.scan (activeRows written.units)).filter (affected call.units))
          (unitGroup row)).Perm (groupRows (activeRows written.units) (unitGroup row)) := by
        have hfilter : groupRows ((call.scan (activeRows written.units)).filter (affected call.units)) (unitGroup row) =
            groupRows (call.scan (activeRows written.units)) (unitGroup row) := by
          rw [groupRows, groupRows, List.filter_filter]
          apply List.filter_congr
          intro other hother
          by_cases hkey : unitGroup other = unitGroup row
          · have hothers := hall other
              (List.mem_filter.mpr ⟨hperm.mem_iff.mp (hscan.mem_iff.mp hother), decide_eq_true hkey⟩)
            rw [hothers, Bool.and_true]
          · rw [decide_eq_false hkey, Bool.false_and]
        rw [hfilter]
        exact hscan.filter _
      have hpayload := hgroup.map (payloadOf written.evidence)
      rw [valuesOf_congr hpayload.length_eq (hpayload.filter _)] at hlookup
      rw [refreshedPayload, hlookup, Option.map_some, Option.some_or]
      rfl
    · obtain ⟨hlength, hsame, hunaffected⟩ := hsame
      have hself := hunaffected row (List.mem_filter.mpr ⟨hstanding, by simp⟩) hsharing
      have hnone : (calculate runtime (refreshedPayload call written)).lookup row.knowledgeUid = none := by
        refine lookup_payload_none written.evidence fun other hother hkey => ?_
        obtain ⟨hother, haffected⟩ := hmem.mp hother
        obtain rfl := List.inj_on_of_nodup_map (activeRows_nodup written.units) hother hrow hkey
        rw [hself] at haffected
        cases haffected
      have hbefore : row ∈ activeRows db.units :=
        mem_activeRows.mpr ⟨(hsame row hsharing rfl).mp hstanding, sharing_active hsharing⟩
      rw [hnone, Option.map_none, Option.none_or, hcross, hinv.shared row hbefore hsharing,
        ← valuesOf_unaffected h (sharing_group hsharing) hlength hsame hunaffected]
      rfl
  · intro knowledgeUid hfree
    have hnone : (calculate runtime (refreshedPayload call written)).lookup knowledgeUid = none :=
      lookup_payload_none written.evidence fun other hother => hfree other (hmem.mp hother).1
    rw [get_refresh, hnone, Option.map_none, Option.none_or, hcross]
    refine hinv.free knowledgeUid fun row hrow hkey => Bool.eq_false_iff.mpr fun hsharing => ?_
    obtain ⟨next, hnext, hid, hshares⟩ := hgroups.kept row (mem_activeRows.mp hrow).1 hsharing
    have hoff := hfree next (hperm.mem_iff.mpr hnext) (hid.trans hkey)
    rw [hshares] at hoff
    cases hoff

end Consistency

section Runs
variable {F : Type} (runtime : WriteRuntime F)

def CrossVideoDb.empty : CrossVideoDb F := ⟨.empty, .empty, .empty⟩

def replaceEach (calls : List ReplaceCall) (db : CrossVideoDb F) : CrossVideoDb F :=
  calls.foldl (fun db call => (replaceForVideo runtime call db).1) db

variable {runtime} {db : CrossVideoDb F} {call : ReplaceCall}

theorem empty_crossVideoInv : CrossVideoInv runtime (CrossVideoDb.empty : CrossVideoDb F) :=
  ⟨fun _ hrow => (by cases hrow), fun _ _ => rfl⟩

/-- A call that does not go through changes nothing. -/
theorem CrossVideoInv.replace (hinv : CrossVideoInv runtime db)
    (hgroups : (replaceForVideo runtime call db).2 = .ok () → GroupsRefreshed runtime call db.units.rows) :
    CrossVideoInv runtime (replaceForVideo runtime call db).1 := by
  cases h : replaceForVideo runtime call db with
  | mk db' result =>
    rw [h] at hgroups
    rw [replaceForVideo] at h
    cases hwrite : writeUnits runtime call db with
    | error e =>
      rw [hwrite] at h
      cases h
      exact hinv
    | ok written =>
      rw [hwrite, ok_bind] at h
      by_cases hrefused : call.refused = true
      · rw [if_pos hrefused] at h
        cases h
        exact hinv
      · rw [if_neg hrefused] at h
        cases h
        exact hinv.refresh hwrite (hgroups rfl)

/-- After calls that each keep what shares and compute a touched group as a whole, what is stored is consistent. -/
theorem cross_video_runs_consistent (runtime : WriteRuntime F) (calls : List ReplaceCall)
    (hgroups : ∀ before call after, calls = before ++ call :: after →
      (replaceForVideo runtime call (replaceEach runtime before .empty)).2 = .ok () →
      GroupsRefreshed runtime call (replaceEach runtime before .empty).units.rows) :
    CrossVideoConsistent runtime (replaceEach runtime calls .empty) := by
  suffices hinv : CrossVideoInv runtime (replaceEach runtime calls .empty) from hinv.consistent
  induction calls using List.reverseRecOn with
  | nil => exact empty_crossVideoInv
  | append_singleton calls call ih =>
    have hlast : replaceEach runtime (calls ++ [call]) .empty =
        (replaceForVideo runtime call (replaceEach runtime calls .empty)).1 := List.foldl_append
    rw [hlast]
    refine (ih fun before first after hcalls => ?_).replace (hgroups calls call [] rfl)
    exact hgroups before first (after ++ [call]) (by rw [hcalls, List.append_assoc]; rfl)

end Runs

section Inputs

def plainRuntime : WriteRuntime Rat where
  str := fun _ => ""
  dictOf := fun _ => .error .typeError
  tables :=
    { isDecimal := Char.isDigit
      isSpace := (· = ' ')
      upper := fun c => [c.toUpper]
      letters := by
        intro c hc
        refine decide_eq_false fun hspace => ?_
        rw [hspace] at hc
        exact absurd hc (by decide) }
  divide := fun a b => a / b
  nextId := fun ids => ids.foldr max 0 + 1

def replacing (videoId : String) (units : List KnowledgeUnit) : ReplaceCall :=
  ⟨videoId, units, id, fun _ => .refl _, false⟩

/-- A unit of the group that the examples share. -/
def bullishUnit (knowledgeUid videoId : String) : KnowledgeUnit where
  knowledgeUid := knowledgeUid
  videoId := videoId
  subjectKey := some "600519"
  predicateKey := some "outlook"
  sentiment := "BULLISH"

/-- The second video comes again without its unit: the unit of the first one still counts two videos. -/
theorem superseded_unit_still_counted : ¬ CrossVideoConsistent plainRuntime
    (replaceEach plainRuntime [replacing "v1" [bullishUnit "a" "v1"], replacing "v2" [bullishUnit "b" "v2"],
      replacing "v2" []] .empty) := by
  intro hconsistent
  have hcurrent := hconsistent.current (bullishUnit "a" "v1") (by decide) (by decide) _ (.refl _)
  revert hcurrent
  decide

/-- The second video joins the group of the first one: both are computed again. -/
theorem joined_group_consistent : CrossVideoConsistent plainRuntime
    (replaceEach plainRuntime [replacing "v1" [bullishUnit "a" "v1"], replacing "v2" [bullishUnit "b" "v2"]] .empty) :=
  cross_video_runs_consistent plainRuntime _ (by
    intro before call after hcalls _
    rcases before with _ | ⟨first, _ | ⟨second, before⟩⟩
    · cases hcalls
      refine ⟨by decide, fun row hrow _ => .inl ?_⟩
      revert row
      decide
    · cases hcalls
      refine ⟨by decide, fun row hrow _ => .inl ?_⟩
      revert row
      decide
    · have hlength := congrArg List.length hcalls
      simp at hlength)

end Inputs
end StockContent.Knowledge
