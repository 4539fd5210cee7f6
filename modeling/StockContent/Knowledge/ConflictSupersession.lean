import Mathlib.Order.WithBot
import StockContent.Ledger.Projector
import StockContent.Storage.Dict
import StockContent.Storage.StableSort

/-! Units with one conflict key: the newest one reinforces, supersedes or contradicts the others. -/
namespace StockContent.Knowledge
open Storage Ledger

/-- The fields of a unit that are read or written, and what else it says. -/
structure ConflictUnit (T Extra : Type) where
  knowledgeUid : Option Json
  conflictKey : Option Json
  asOfTime : Option T
  sentiment : Option Json
  knowledgeKind : Option Json
  conditionText : Option Json
  invalidationText : Option Json
  sourceVideoId : Option Json
  conflictGroupId : Option Json
  lifecycleStatus : Option Json
  verificationStatus : Option Json
  extra : Extra

/-- A unit with its position in the list. -/
abbrev UnitEntry (T Extra : Type) := ConflictUnit T Extra × Nat

inductive ConflictRelation where
  | supersedes | conflictsWith | reinforces
  deriving DecidableEq

structure ResolutionAttributes where
  reason : String
  conflictResolutionReason : String
  recommendedAction : String
  conflictScope : String
  knowledgeKind : String

structure KnowledgeRelation where
  sourceUid : Option Json
  targetUid : Option Json
  relationType : ConflictRelation
  confidenceScore : Rat
  attributes : ResolutionAttributes

/-- `str` of values that are no strings, and the hex digest of a text. -/
structure ResolverRuntime where
  text : Json → String
  sha256 : String → String

/-- What is written into a unit. None of it is read. -/
inductive UnitWrite where
  | groupId (id : String)
  | superseded
  | needsReview
  deriving DecidableEq

section Resolve
variable {T Extra : Type} [LinearOrder T] (runtime : ResolverRuntime)

def conflictKeyOf (unit : ConflictUnit T Extra) : String := Json.orText runtime.text unit.conflictKey

def sentimentOf (unit : ConflictUnit T Extra) : String := Json.orText runtime.text unit.sentiment

def contradicts (left right : ConflictUnit T Extra) : Bool :=
  sentimentOf runtime left = "BULLISH" && sentimentOf runtime right = "BEARISH" ||
    sentimentOf runtime left = "BEARISH" && sentimentOf runtime right = "BULLISH"

/-- The kind of the latest unit, or else of the older one. -/
def kindOf (latest older : ConflictUnit T Extra) : String :=
  ((latest.knowledgeKind.filter truthy).or (older.knowledgeKind.filter truthy)).elim "STATE" (Json.strOf runtime.text)

def relationForContradiction (latest older : ConflictUnit T Extra) : ConflictRelation :=
  if kindOf runtime latest older ∈ ["STATE", "TECHNICAL_SIGNAL"] then .supersedes
  else if kindOf runtime latest older ∈ ["ACTION", "RISK_CONDITION"] then
    if latest.conditionText.any truthy || latest.invalidationText.any truthy then .supersedes else .conflictsWith
  else .conflictsWith

def resolutionAttributes (latest older : ConflictUnit T Extra) (relationType : ConflictRelation) :
    ResolutionAttributes :=
  let kind := kindOf runtime latest older
  let reason :=
    if relationType = .reinforces then "same_conflict_key_same_direction"
    else "same_conflict_key_newer_opposite_sentiment"
  { reason := reason
    conflictResolutionReason := reason
    recommendedAction :=
      if kind = "STATE" then "keep_latest_as_current"
      else if kind = "ACTION" then
        if relationType = .supersedes then "retire_stale_action" else "review_or_retire_stale_action"
      else if kind = "FORECAST" then "keep_forecast_history"
      else if kind ∈ ["METHOD", "CONCEPT"] then "manual_review_before_supersede"
      else if kind = "FACT" then "require_evidence_verification"
      else "review_conflict_group"
    conflictScope :=
      if (latest.sourceVideoId.getD .null).same (older.sourceVideoId.getD .null) then "same_video"
      else "cross_video_or_unknown"
    knowledgeKind := kind }

def relationOf (latest older : ConflictUnit T Extra) : KnowledgeRelation :=
  let relationType := if contradicts runtime latest older then relationForContradiction runtime latest older else .reinforces
  { sourceUid := latest.knowledgeUid
    targetUid := older.knowledgeUid
    relationType := relationType
    confidenceScore :=
      if relationType = .supersedes then 72 / 100 else if relationType = .conflictsWith then 64 / 100 else 62 / 100
    attributes := resolutionAttributes runtime latest older relationType }

/-- Undated units come last in the order of time. -/
def recency (unit : ConflictUnit T Extra) : WithBot T := unit.asOfTime

/-- The newest unit of a group, the first one if there are several, against each other one. -/
def decisionsOf (group : List (UnitEntry T Extra)) :
    List (UnitEntry T Extra × UnitEntry T Extra) :=
  if group.length ≤ 1 then []
  else match sortedBy (fun entry => OrderDual.toDual (recency entry.1)) group with
    | [] => []
    | latest :: older => older.map fun entry => (latest, entry)

def supersedesIn (latest older : ConflictUnit T Extra) : Bool :=
  contradicts runtime latest older && relationForContradiction runtime latest older = .supersedes

def needsReview (latest older : ConflictUnit T Extra) : Bool :=
  contradicts runtime latest older && relationForContradiction runtime latest older ≠ .supersedes &&
    kindOf runtime latest older ∈ ["METHOD", "CONCEPT", "FACT", "ACTION", "RISK_CONDITION"]

def decisionWrites (decision : UnitEntry T Extra × UnitEntry T Extra) : List (Nat × UnitWrite) :=
  if supersedesIn runtime decision.1.1 decision.2.1 then [(decision.2.2, .superseded)]
  else if needsReview runtime decision.1.1 decision.2.1 then
    [(decision.1.2, .needsReview), (decision.2.2, .needsReview)]
  else []

def conflictGroupId (key : String) : String := "kcg_" ++ String.ofList ((runtime.sha256 key).toList.take 12)

def groupWrites (key : String) (group : List (UnitEntry T Extra)) : List (Nat × UnitWrite) :=
  if group.length ≤ 1 then []
  else group.map (fun entry => (entry.2, .groupId (conflictGroupId runtime key))) ++
    (decisionsOf group).flatMap (decisionWrites runtime)

def conflictGroups (units : List (ConflictUnit T Extra)) : List (String × List (UnitEntry T Extra)) :=
  (Dict.groupBy (fun entry => conflictKeyOf runtime entry.1)
    (units.zipIdx.filter fun entry => conflictKeyOf runtime entry.1 ≠ "")).rows

def decisions (units : List (ConflictUnit T Extra)) : List (UnitEntry T Extra × UnitEntry T Extra) :=
  (conflictGroups runtime units).flatMap fun group => decisionsOf group.2

def unitWrites (units : List (ConflictUnit T Extra)) : List (Nat × UnitWrite) :=
  (conflictGroups runtime units).flatMap fun group => groupWrites runtime group.1 group.2

def applyWrite (unit : ConflictUnit T Extra) : UnitWrite → ConflictUnit T Extra
  | .groupId id => { unit with conflictGroupId := some (.str id) }
  | .superseded => { unit with lifecycleStatus := some (.str "SUPERSEDED") }
  | .needsReview => { unit with verificationStatus := some (.str "NEEDS_REVIEW") }

/-- A unit after the writes to its position, in their order. -/
def written (writes : List (Nat × UnitWrite)) (entry : UnitEntry T Extra) : ConflictUnit T Extra :=
  ((writes.filter (·.1 = entry.2)).map Prod.snd).foldl applyWrite entry.1

def resolve (units : List (ConflictUnit T Extra)) : List (ConflictUnit T Extra) × List KnowledgeRelation :=
  (units.zipIdx.map (written (unitWrites runtime units)),
    (decisions runtime units).map fun decision => relationOf runtime decision.1.1 decision.2.1)

end Resolve

section Positions
variable {T Extra : Type} {runtime : ResolverRuntime} {units others : List (ConflictUnit T Extra)}
  {entry other : UnitEntry T Extra} {key : String}

/-- Units that stand at positions and have the same conflict key. -/
structure Rivals (runtime : ResolverRuntime) (units : List (ConflictUnit T Extra)) (entry other : UnitEntry T Extra) :
    Prop where
  left : entry ∈ units.zipIdx
  right : other ∈ units.zipIdx
  key : conflictKeyOf runtime other.1 = conflictKeyOf runtime entry.1
  keyed : conflictKeyOf runtime entry.1 ≠ ""

theorem eq_of_position (h : entry ∈ units.zipIdx) (h' : other ∈ units.zipIdx) (hposition : entry.2 = other.2) :
    entry = other := by
  rw [List.mem_zipIdx_iff_getElem?] at h h'
  rw [hposition, h'] at h
  exact Prod.ext (Option.some.inj h).symm hposition

theorem mem_conflictGroups {group : List (UnitEntry T Extra)} : (key, group) ∈ conflictGroups runtime units ↔
    group = (units.zipIdx.filter fun entry => conflictKeyOf runtime entry.1 ≠ "").filter
      (fun entry => conflictKeyOf runtime entry.1 = key) ∧ group ≠ [] :=
  Dict.mem_groupBy

theorem mem_group : entry ∈ (units.zipIdx.filter fun entry => conflictKeyOf runtime entry.1 ≠ "").filter
    (fun entry => conflictKeyOf runtime entry.1 = key) ↔
      entry ∈ units.zipIdx ∧ conflictKeyOf runtime entry.1 ≠ "" ∧ conflictKeyOf runtime entry.1 = key := by
  rw [List.mem_filter, List.mem_filter, decide_eq_true_eq, decide_eq_true_eq, and_assoc]

variable [LinearOrder T]

/-- An entry that the sorting of its group puts before another one. -/
def Ahead (entry other : UnitEntry T Extra) : Prop :=
  recency other.1 < recency entry.1 ∨ recency entry.1 = recency other.1 ∧ entry.2 < other.2

theorem Ahead.le (h : Ahead entry other) : recency other.1 ≤ recency entry.1 :=
  h.elim le_of_lt fun heq => heq.1.ge

theorem Ahead.asymm (h : Ahead entry other) : ¬ Ahead other entry := by
  rintro (hlt | heq)
  · exact absurd h.le (not_le.mpr hlt)
  · rcases h with hlt | heq'
    · exact absurd heq.1 hlt.ne
    · exact lt_asymm heq.2 heq'.2

/-- The decisions of a group are those of its foremost entry against the others. -/
theorem mem_decisionsOf {group : List (UnitEntry T Extra)} (hgroup : group.Pairwise fun a b => a.2 < b.2) :
    (entry, other) ∈ decisionsOf group ↔
      entry ∈ group ∧ other ∈ group ∧ other ≠ entry ∧ ∀ e ∈ group, e ≠ entry → Ahead entry e := by
  have hmem : ∀ e, e ∈ sortedBy (fun entry => OrderDual.toDual (recency entry.1)) group ↔ e ∈ group :=
    fun _ => mem_sortedBy
  have hahead : (sortedBy (fun entry => OrderDual.toDual (recency entry.1)) group).Pairwise Ahead :=
    (pairwise_stable hgroup).imp fun h => h.imp id fun heq => ⟨heq.1, heq.2⟩
  rw [decisionsOf]
  split
  · rename_i hshort
    refine ⟨(nomatch ·), fun h => ?_⟩
    obtain ⟨hentry, hother, hne, _⟩ := h
    cases group with
    | nil => cases hentry
    | cons e rest =>
      obtain rfl : rest = [] := List.length_eq_zero_iff.mp (Nat.le_zero.mp (Nat.le_of_succ_le_succ hshort))
      exact absurd ((List.mem_singleton.mp hother).trans (List.mem_singleton.mp hentry).symm) hne
  · generalize sortedBy (fun entry => OrderDual.toDual (recency entry.1)) group = ordered at hmem hahead
    cases ordered with
    | nil =>
      refine ⟨(nomatch ·), fun h => ?_⟩
      exact absurd ((hmem entry).mpr h.1) List.not_mem_nil
    | cons latest older =>
      obtain ⟨hlatest, _⟩ := List.pairwise_cons.mp hahead
      have hforemost : ∀ e ∈ group, e ≠ latest → Ahead latest e := fun e he hne =>
        hlatest e (((List.mem_cons.mp ((hmem e).mpr he))).resolve_left hne)
      have hfresh : latest ∉ older := fun hin => (hlatest latest hin).asymm (hlatest latest hin)
      simp only [List.mem_map, Prod.mk.injEq]
      constructor
      · rintro ⟨e, he, rfl, rfl⟩
        refine ⟨(hmem latest).mp List.mem_cons_self, (hmem e).mp (List.mem_cons_of_mem _ he), ?_, hforemost⟩
        rintro rfl
        exact hfresh he
      · rintro ⟨hentry, hother, hne, hfirst⟩
        have heq : latest = entry := by
          by_contra hdiff
          have hback := hfirst latest ((hmem latest).mp List.mem_cons_self) hdiff
          exact hback.asymm (hforemost entry hentry (Ne.symm hdiff))
        subst heq
        exact ⟨other, (List.mem_cons.mp ((hmem other).mpr hother)).resolve_left hne, rfl, rfl⟩

/-- An entry that comes before all others of its key. -/
def Foremost (runtime : ResolverRuntime) (units : List (ConflictUnit T Extra)) (entry : UnitEntry T Extra) : Prop :=
  ∀ e, Rivals runtime units entry e → e ≠ entry → Ahead entry e

theorem mem_decisions : (entry, other) ∈ decisions runtime units ↔
    Rivals runtime units entry other ∧ other ≠ entry ∧ Foremost runtime units entry := by
  have hpairs (key : String) : ((units.zipIdx.filter fun entry => conflictKeyOf runtime entry.1 ≠ "").filter
      (fun entry => conflictKeyOf runtime entry.1 = key)).Pairwise fun a b => a.2 < b.2 :=
    ((pairwise_zipIdx units 0).filter _).filter _
  rw [decisions, List.mem_flatMap]
  constructor
  · rintro ⟨⟨key, group⟩, hgroup, hdecision⟩
    obtain ⟨rfl, _⟩ := mem_conflictGroups.mp hgroup
    obtain ⟨hentry, hother, hne, hfirst⟩ := (mem_decisionsOf (hpairs key)).mp hdecision
    obtain ⟨hleft, hkeyed, rfl⟩ := mem_group.mp hentry
    obtain ⟨hright, _, hkey⟩ := mem_group.mp hother
    exact ⟨⟨hleft, hright, hkey, hkeyed⟩, hne, fun e he => hfirst e (mem_group.mpr ⟨he.right, he.key ▸ hkeyed, he.key⟩)⟩
  · rintro ⟨hrivals, hne, hfirst⟩
    have hentry := mem_group.mpr ⟨hrivals.left, hrivals.keyed, rfl⟩
    have hother := mem_group.mpr ⟨hrivals.right, hrivals.key ▸ hrivals.keyed, hrivals.key⟩
    refine ⟨(conflictKeyOf runtime entry.1, _), mem_conflictGroups.mpr ⟨rfl, List.ne_nil_of_mem hentry⟩, ?_⟩
    refine (mem_decisionsOf (hpairs _)).mpr ⟨hentry, hother, hne, fun e he => hfirst e ?_⟩
    obtain ⟨hright, _, hkey⟩ := mem_group.mp he
    exact ⟨hrivals.left, hright, hkey, hrivals.keyed⟩

end Positions

section Chronology
variable {T Extra : Type} {runtime : ResolverRuntime} {units others : List (ConflictUnit T Extra)}
  {entry other : UnitEntry T Extra} {unit : ConflictUnit T Extra} {key : String}

theorem exists_entry (h : unit ∈ units) : ∃ position, (unit, position) ∈ units.zipIdx := by
  obtain ⟨position, hposition⟩ := List.mem_iff_getElem?.mp h
  exact ⟨position, List.mem_zipIdx_iff_getElem?.mpr hposition⟩

/-- The entries of the units that pass a test. -/
theorem map_filter_zipIdx (p : ConflictUnit T Extra → Bool) (units : List (ConflictUnit T Extra)) :
    (units.zipIdx.filter fun entry => p entry.1).map Prod.fst = units.filter p := by
  conv_rhs => rw [← List.zipIdx_map_fst 0 units, List.filter_map]
  rfl

theorem eq_of_length_le_one {A : Type} {xs : List A} {x y : A} (h : xs.length ≤ 1) (hx : x ∈ xs) (hy : y ∈ xs) : x = y := by
  cases xs with
  | nil => cases hx
  | cons z rest =>
    obtain rfl : rest = [] := List.length_eq_zero_iff.mp (Nat.le_zero.mp (Nat.le_of_succ_le_succ h))
    exact (List.mem_singleton.mp hx).trans (List.mem_singleton.mp hy).symm

variable [LinearOrder T]

/-- The units of a key that none of it is newer than. -/
def newestUnits (runtime : ResolverRuntime) (units : List (ConflictUnit T Extra)) (key : String) :
    List (ConflictUnit T Extra) :=
  units.filter fun unit => conflictKeyOf runtime unit = key ∧
    ∀ v ∈ units, conflictKeyOf runtime v = key → recency v ≤ recency unit

/-- Each key has one newest unit, and what this one supersedes has a date. -/
structure Chronological (runtime : ResolverRuntime) (units : List (ConflictUnit T Extra)) : Prop where
  single : ∀ key, key ≠ "" → (newestUnits runtime units key).length ≤ 1
  dated : ∀ key, key ≠ "" → ∀ newest ∈ newestUnits runtime units key, ∀ older ∈ units, conflictKeyOf runtime older = key →
    supersedesIn runtime newest older = true → older.asOfTime ≠ none

theorem mem_newestUnits : unit ∈ newestUnits runtime units key ↔ unit ∈ units ∧ conflictKeyOf runtime unit = key ∧
    ∀ v ∈ units, conflictKeyOf runtime v = key → recency v ≤ recency unit := by
  rw [newestUnits, List.mem_filter, decide_eq_true_eq]

theorem newestUnits_perm (runtime : ResolverRuntime) (h : others.Perm units) (key : String) :
    (newestUnits runtime others key).Perm (newestUnits runtime units key) := by
  have hsame : newestUnits runtime others key = others.filter fun unit => conflictKeyOf runtime unit = key ∧
      ∀ v ∈ units, conflictKeyOf runtime v = key → recency v ≤ recency unit := by
    simp only [newestUnits, h.mem_iff]
  rw [hsame]
  exact h.filter _

theorem Chronological.perm (h : Chronological runtime units) (hperm : others.Perm units) : Chronological runtime others where
  single := fun key hkey => (newestUnits_perm runtime hperm key).length_eq.trans_le (h.single key hkey)
  dated := fun key hkey newest hnewest older holder =>
    h.dated key hkey newest ((newestUnits_perm runtime hperm key).mem_iff.mp hnewest) older (hperm.mem_iff.mp holder)

theorem newest_unique (hsingle : (newestUnits runtime units key).length ≤ 1) (hentry : entry ∈ units.zipIdx)
    (hother : other ∈ units.zipIdx) (hnewest : entry.1 ∈ newestUnits runtime units key)
    (hnewest' : other.1 ∈ newestUnits runtime units key) : entry = other := by
  rw [newestUnits, ← map_filter_zipIdx, List.length_map] at hsingle
  have hmem : ∀ e ∈ units.zipIdx, e.1 ∈ newestUnits runtime units key → e ∈ units.zipIdx.filter fun e =>
      decide (conflictKeyOf runtime e.1 = key ∧ ∀ v ∈ units, conflictKeyOf runtime v = key → recency v ≤ recency e.1) :=
    fun e he hnew => List.mem_filter.mpr ⟨he, decide_eq_true (mem_newestUnits.mp hnew).2⟩
  exact eq_of_length_le_one hsingle (hmem entry hentry hnewest) (hmem other hother hnewest')

theorem Foremost.newest (h : Foremost runtime units entry) (hentry : entry ∈ units.zipIdx)
    (hkeyed : conflictKeyOf runtime entry.1 ≠ "") :
    entry.1 ∈ newestUnits runtime units (conflictKeyOf runtime entry.1) := by
  refine mem_newestUnits.mpr ⟨List.fst_mem_of_mem_zipIdx hentry, rfl, fun v hv hkey => ?_⟩
  obtain ⟨position, hposition⟩ := exists_entry hv
  by_cases heq : (v, position) = entry
  · rw [← heq]
  · exact (h (v, position) ⟨hentry, hposition, hkey, hkeyed⟩ heq).le

theorem foremost_of_single (hsingle : (newestUnits runtime units (conflictKeyOf runtime entry.1)).length ≤ 1)
    (hnewest : entry.1 ∈ newestUnits runtime units (conflictKeyOf runtime entry.1)) : Foremost runtime units entry := by
  intro e hrivals hne
  obtain ⟨_, _, hle⟩ := mem_newestUnits.mp hnewest
  have hmem := List.fst_mem_of_mem_zipIdx hrivals.right
  rcases (hle e.1 hmem hrivals.key).lt_or_eq with hlt | heq
  · exact .inl hlt
  · refine absurd (newest_unique hsingle hrivals.right hrivals.left (mem_newestUnits.mpr ⟨hmem, hrivals.key, ?_⟩) hnewest) hne
    exact fun v hv hkey => heq ▸ hle v hv hkey

end Chronology

section Sound
variable {T Extra : Type} {runtime : ResolverRuntime} {units others : List (ConflictUnit T Extra)}
  {entry other : UnitEntry T Extra} {unit newest older : ConflictUnit T Extra} {key : String}

theorem relationType_supersedes : (relationOf runtime newest older).relationType = .supersedes ↔
    supersedesIn runtime newest older = true := by
  rw [relationOf, supersedesIn, Bool.and_eq_true, decide_eq_true_eq]
  dsimp only
  split
  · rename_i h
    exact (and_iff_right h).symm
  · rename_i h
    exact ⟨(nomatch ·), fun hsupersedes => absurd hsupersedes.1 h⟩

theorem contradicts_of_supersedesIn (h : supersedesIn runtime newest older = true) :
    contradicts runtime newest older = true := (Bool.and_eq_true_iff.mp h).1

theorem contradicts_irrefl (unit : ConflictUnit T Extra) : contradicts runtime unit unit = false := by
  rw [contradicts]
  by_cases h : sentimentOf runtime unit = "BULLISH"
  · simp [h]
  · simp [h]

theorem mem_decisionWrites {decision : UnitEntry T Extra × UnitEntry T Extra} {position : Nat}
    {write : UnitWrite} : (position, write) ∈ decisionWrites runtime decision ↔
      (write = .superseded ∧ supersedesIn runtime decision.1.1 decision.2.1 = true ∧ position = decision.2.2) ∨
        (write = .needsReview ∧ needsReview runtime decision.1.1 decision.2.1 = true ∧
          (position = decision.1.2 ∨ position = decision.2.2)) := by
  have hexclusive : supersedesIn runtime decision.1.1 decision.2.1 = true →
      needsReview runtime decision.1.1 decision.2.1 = false := by
    intro h
    rw [supersedesIn, Bool.and_eq_true, decide_eq_true_eq] at h
    simp [needsReview, h.2]
  rw [decisionWrites]
  split
  · rename_i h
    simp [h, hexclusive h, and_comm]
  · rename_i h
    split
    · rename_i hreview
      simp only [List.mem_cons, List.not_mem_nil, or_false, Prod.mk.injEq, h, hreview, false_and, and_false, false_or,
        true_and, Bool.false_eq_true]
      tauto
    · rename_i hreview
      simp [h, hreview]

variable [LinearOrder T]

/-- Both units are dated, and the first one is the later. -/
def StrictlyNewer (newer older : ConflictUnit T Extra) : Prop :=
  ∃ t t', newer.asOfTime = some t ∧ older.asOfTime = some t' ∧ t' < t

/-- What supersession should be, whatever the order of the units. -/
structure SupersessionSound (runtime : ResolverRuntime) (units : List (ConflictUnit T Extra)) : Prop where
  related : ∀ decision ∈ decisions runtime units,
    (relationOf runtime decision.1.1 decision.2.1).relationType = .supersedes →
      StrictlyNewer decision.1.1 decision.2.1 ∧ contradicts runtime decision.1.1 decision.2.1 = true
  marked : ∀ entry ∈ units.zipIdx, (entry.2, UnitWrite.superseded) ∈ unitWrites runtime units →
    ∃ newer ∈ units, StrictlyNewer newer entry.1 ∧ contradicts runtime newer entry.1 = true
  orderFree : ∀ others, others.Perm units →
    (∀ relation, relation ∈ (resolve runtime others).2 ↔ relation ∈ (resolve runtime units).2) ∧
      (resolve runtime others).1.Perm (resolve runtime units).1

theorem mem_unitWrites {position : Nat} {write : UnitWrite} : (position, write) ∈ unitWrites runtime units ↔
    (∃ entry ∈ units.zipIdx, entry.2 = position ∧ conflictKeyOf runtime entry.1 ≠ "" ∧
      1 < (units.filter (conflictKeyOf runtime · = conflictKeyOf runtime entry.1)).length ∧
      write = .groupId (conflictGroupId runtime (conflictKeyOf runtime entry.1))) ∨
    ∃ decision ∈ decisions runtime units, (position, write) ∈ decisionWrites runtime decision := by
  have hlength (key : String) (hkey : key ≠ "") : ((units.zipIdx.filter fun entry => conflictKeyOf runtime entry.1 ≠ "").filter
      (fun entry => conflictKeyOf runtime entry.1 = key)).length = (units.filter (conflictKeyOf runtime · = key)).length := by
    rw [← map_filter_zipIdx, List.length_map, List.filter_filter]
    congr 1
    refine List.filter_congr fun e _ => ?_
    by_cases he : conflictKeyOf runtime e.1 = key <;> simp [he, hkey]
  rw [unitWrites, List.mem_flatMap]
  constructor
  · rintro ⟨⟨key, group⟩, hgroup, hwrite⟩
    obtain ⟨hrows, _⟩ := mem_conflictGroups.mp hgroup
    rw [groupWrites] at hwrite
    split at hwrite
    · cases hwrite
    · rename_i hlong
      rcases List.mem_append.mp hwrite with hid | hdecided
      · obtain ⟨e, he, heq⟩ := List.mem_map.mp hid
        rw [hrows] at he hlong
        obtain ⟨hentry, hkeyed, rfl⟩ := mem_group.mp he
        obtain ⟨hposition, rfl⟩ := Prod.mk.inj heq
        refine .inl ⟨e, hentry, hposition, hkeyed, ?_, rfl⟩
        rw [← hlength _ hkeyed]
        exact Nat.lt_of_not_le hlong
      · obtain ⟨decision, hdecision, hwrite⟩ := List.mem_flatMap.mp hdecided
        exact .inr ⟨decision, List.mem_flatMap.mpr ⟨(key, group), hgroup, hdecision⟩, hwrite⟩
  · rintro (⟨e, he, rfl, hkeyed, hlong, rfl⟩ | ⟨decision, hdecision, hwrite⟩)
    · have hmem := mem_group.mpr ⟨he, hkeyed, rfl⟩
      refine ⟨(conflictKeyOf runtime e.1, _), mem_conflictGroups.mpr ⟨rfl, List.ne_nil_of_mem hmem⟩, ?_⟩
      rw [groupWrites, if_neg (Nat.not_le_of_lt ((hlength _ hkeyed).symm ▸ hlong))]
      exact List.mem_append_left _ (List.mem_map.mpr ⟨e, hmem, rfl⟩)
    · obtain ⟨group, hgroup, hdecided⟩ := List.mem_flatMap.mp hdecision
      refine ⟨group, hgroup, ?_⟩
      have hlong : ¬ group.2.length ≤ 1 := fun hshort => by
        rw [decisionsOf, if_pos hshort] at hdecided
        cases hdecided
      rw [groupWrites, if_neg hlong]
      exact List.mem_append_right _ (List.mem_flatMap.mpr ⟨decision, hdecided, hwrite⟩)

end Sound

section Settled
variable {T Extra : Type} {runtime : ResolverRuntime} {units others : List (ConflictUnit T Extra)}
  {entry other : UnitEntry T Extra} {unit : ConflictUnit T Extra}

theorem foldl_applyWrite {writes : List UnitWrite} {id : String} (hid : ∀ other, .groupId other ∈ writes → other = id) :
    writes.foldl applyWrite unit =
      { unit with
        conflictGroupId := if .groupId id ∈ writes then some (.str id) else unit.conflictGroupId
        lifecycleStatus := if .superseded ∈ writes then some (.str "SUPERSEDED") else unit.lifecycleStatus
        verificationStatus := if .needsReview ∈ writes then some (.str "NEEDS_REVIEW") else unit.verificationStatus } := by
  induction writes generalizing unit with
  | nil => rfl
  | cons write writes ih =>
    rw [List.foldl_cons, ih fun other hother => hid other (List.mem_cons_of_mem _ hother)]
    cases write with
    | groupId other =>
      obtain rfl := hid other List.mem_cons_self
      simp [applyWrite]
    | superseded => simp [applyWrite]
    | needsReview => simp [applyWrite]

theorem ne_of_contradicts (h : contradicts runtime entry.1 other.1 = true) : entry ≠ other := by
  rintro rfl
  rw [contradicts_irrefl] at h
  cases h

variable [LinearOrder T]

/-- One of the newest units of its key supersedes it. -/
def IsSuperseded (runtime : ResolverRuntime) (units : List (ConflictUnit T Extra)) (unit : ConflictUnit T Extra) : Prop :=
  conflictKeyOf runtime unit ≠ "" ∧
    ∃ newest ∈ newestUnits runtime units (conflictKeyOf runtime unit), supersedesIn runtime newest unit = true

/-- It is in need of review against a newest unit, or is a newest one itself and another one is. -/
def IsReviewed (runtime : ResolverRuntime) (units : List (ConflictUnit T Extra)) (unit : ConflictUnit T Extra) : Prop :=
  conflictKeyOf runtime unit ≠ "" ∧
    ((∃ newest ∈ newestUnits runtime units (conflictKeyOf runtime unit), needsReview runtime newest unit = true) ∨
      (∀ v ∈ units, conflictKeyOf runtime v = conflictKeyOf runtime unit → recency v ≤ recency unit) ∧
        ∃ older ∈ units, conflictKeyOf runtime older = conflictKeyOf runtime unit ∧ needsReview runtime unit older = true)

instance : Decidable (IsSuperseded runtime units unit) := inferInstanceAs (Decidable (_ ∧ _))

instance : Decidable (IsReviewed runtime units unit) := inferInstanceAs (Decidable (_ ∧ _))

/-- What the resolver makes of a unit where each key has one newest unit. -/
def settledUnit (runtime : ResolverRuntime) (units : List (ConflictUnit T Extra)) (unit : ConflictUnit T Extra) :
    ConflictUnit T Extra :=
  { unit with
    conflictGroupId :=
      if conflictKeyOf runtime unit ≠ "" ∧ 1 < (units.filter (conflictKeyOf runtime · = conflictKeyOf runtime unit)).length
      then some (.str (conflictGroupId runtime (conflictKeyOf runtime unit))) else unit.conflictGroupId
    lifecycleStatus := if IsSuperseded runtime units unit then some (.str "SUPERSEDED") else unit.lifecycleStatus
    verificationStatus := if IsReviewed runtime units unit then some (.str "NEEDS_REVIEW") else unit.verificationStatus }

theorem mem_writesAt {writes : List (Nat × UnitWrite)} {position : Nat} {write : UnitWrite} :
    write ∈ (writes.filter (·.1 = position)).map Prod.snd ↔ (position, write) ∈ writes := by
  simp only [List.mem_map, List.mem_filter, decide_eq_true_eq]
  constructor
  · rintro ⟨⟨_, _⟩, ⟨hmem, rfl⟩, rfl⟩
    exact hmem
  · exact fun h => ⟨(position, write), ⟨h, rfl⟩, rfl⟩

theorem groupId_mem (hentry : entry ∈ units.zipIdx) {id : String} :
    (entry.2, UnitWrite.groupId id) ∈ unitWrites runtime units ↔
      (conflictKeyOf runtime entry.1 ≠ "" ∧
        1 < (units.filter (conflictKeyOf runtime · = conflictKeyOf runtime entry.1)).length) ∧
        id = conflictGroupId runtime (conflictKeyOf runtime entry.1) := by
  rw [mem_unitWrites]
  constructor
  · rintro (⟨e, he, hposition, hkeyed, hlong, hid⟩ | ⟨decision, _, hwrite⟩)
    · obtain rfl := eq_of_position he hentry hposition
      exact ⟨⟨hkeyed, hlong⟩, UnitWrite.groupId.inj hid⟩
    · rcases mem_decisionWrites.mp hwrite with h | h <;> cases h.1
  · rintro ⟨⟨hkeyed, hlong⟩, rfl⟩
    exact .inl ⟨entry, hentry, rfl, hkeyed, hlong, rfl⟩

theorem superseded_mem : (entry.2, UnitWrite.superseded) ∈ unitWrites runtime units ↔
    ∃ decision ∈ decisions runtime units, supersedesIn runtime decision.1.1 decision.2.1 = true ∧ entry.2 = decision.2.2 := by
  rw [mem_unitWrites]
  constructor
  · rintro (⟨_, _, _, _, _, hwrite⟩ | ⟨decision, hdecision, hwrite⟩)
    · cases hwrite
    · rcases mem_decisionWrites.mp hwrite with h | h
      · exact ⟨decision, hdecision, h.2⟩
      · cases h.1
  · rintro ⟨decision, hdecision, h⟩
    exact .inr ⟨decision, hdecision, mem_decisionWrites.mpr (.inl ⟨rfl, h⟩)⟩

theorem needsReview_mem : (entry.2, UnitWrite.needsReview) ∈ unitWrites runtime units ↔
    ∃ decision ∈ decisions runtime units, needsReview runtime decision.1.1 decision.2.1 = true ∧
      (entry.2 = decision.1.2 ∨ entry.2 = decision.2.2) := by
  rw [mem_unitWrites]
  constructor
  · rintro (⟨_, _, _, _, _, hwrite⟩ | ⟨decision, hdecision, hwrite⟩)
    · cases hwrite
    · rcases mem_decisionWrites.mp hwrite with h | h
      · cases h.1
      · exact ⟨decision, hdecision, h.2⟩
  · rintro ⟨decision, hdecision, h⟩
    exact .inr ⟨decision, hdecision, mem_decisionWrites.mpr (.inr ⟨rfl, h⟩)⟩

/-- The decision between a newest unit and one that contradicts it. -/
theorem exists_decision (hsingle : ∀ key, key ≠ "" → (newestUnits runtime units key).length ≤ 1)
    (hentry : entry ∈ units.zipIdx) (hother : other ∈ units.zipIdx) (hkeyed : conflictKeyOf runtime other.1 ≠ "")
    (hnewest : entry.1 ∈ newestUnits runtime units (conflictKeyOf runtime other.1)) (hne : entry ≠ other) :
    (entry, other) ∈ decisions runtime units := by
  have hkey := (mem_newestUnits.mp hnewest).2.1
  refine mem_decisions.mpr ⟨⟨hentry, hother, hkey.symm, hkey ▸ hkeyed⟩, hne.symm, foremost_of_single ?_ ?_⟩
  · exact hsingle _ (hkey ▸ hkeyed)
  · rwa [hkey]

theorem written_eq (h : Chronological runtime units) (hentry : entry ∈ units.zipIdx) :
    written (unitWrites runtime units) entry = settledUnit runtime units entry.1 := by
  have hsuperseded : (entry.2, UnitWrite.superseded) ∈ unitWrites runtime units ↔ IsSuperseded runtime units entry.1 := by
    rw [superseded_mem]
    constructor
    · rintro ⟨⟨latest, older⟩, hdecision, hin, hposition⟩
      obtain ⟨hrivals, _, hforemost⟩ := mem_decisions.mp hdecision
      obtain rfl := eq_of_position hentry hrivals.right hposition
      refine ⟨hrivals.key ▸ hrivals.keyed, latest.1, ?_, hin⟩
      rw [hrivals.key]
      exact hforemost.newest hrivals.left hrivals.keyed
    · rintro ⟨hkeyed, newest, hnewest, hin⟩
      obtain ⟨position, hposition⟩ := exists_entry (mem_newestUnits.mp hnewest).1
      exact ⟨_, exists_decision h.single hposition hentry hkeyed hnewest
        (ne_of_contradicts (contradicts_of_supersedesIn hin)), hin, rfl⟩
  have hreviewed : (entry.2, UnitWrite.needsReview) ∈ unitWrites runtime units ↔ IsReviewed runtime units entry.1 := by
    have hcontradicts {newest older : ConflictUnit T Extra} (hin : needsReview runtime newest older = true) :
        contradicts runtime newest older = true := (Bool.and_eq_true_iff.mp (Bool.and_eq_true_iff.mp hin).1).1
    rw [needsReview_mem]
    constructor
    · rintro ⟨⟨latest, older⟩, hdecision, hin, hposition⟩
      obtain ⟨hrivals, _, hforemost⟩ := mem_decisions.mp hdecision
      have hnewest := hforemost.newest hrivals.left hrivals.keyed
      rcases hposition with hposition | hposition
      · obtain rfl := eq_of_position hentry hrivals.left hposition
        exact ⟨hrivals.keyed, .inr ⟨(mem_newestUnits.mp hnewest).2.2, older.1, List.fst_mem_of_mem_zipIdx hrivals.right,
          hrivals.key, hin⟩⟩
      · obtain rfl := eq_of_position hentry hrivals.right hposition
        refine ⟨hrivals.key ▸ hrivals.keyed, .inl ⟨latest.1, ?_, hin⟩⟩
        rwa [hrivals.key]
    · rintro ⟨hkeyed, ⟨newest, hnewest, hin⟩ | ⟨hle, older, holder, hkey, hin⟩⟩
      · obtain ⟨position, hposition⟩ := exists_entry (mem_newestUnits.mp hnewest).1
        exact ⟨_, exists_decision h.single hposition hentry hkeyed hnewest (ne_of_contradicts (hcontradicts hin)), hin,
          .inr rfl⟩
      · obtain ⟨position, hposition⟩ := exists_entry holder
        have hnewest := mem_newestUnits.mpr ⟨List.fst_mem_of_mem_zipIdx hentry, hkey.symm, fun v hv hv' =>
          hle v hv (hv'.trans hkey)⟩
        exact ⟨_, exists_decision h.single hentry hposition (hkey.symm ▸ hkeyed) hnewest
          (ne_of_contradicts (hcontradicts hin)), hin, .inl rfl⟩
  rw [written, foldl_applyWrite fun other hother => ((groupId_mem hentry).mp (mem_writesAt.mp hother)).2]
  simp only [mem_writesAt, groupId_mem hentry, and_true, hsuperseded, hreviewed, settledUnit]

theorem settledUnit_perm (h : others.Perm units) (unit : ConflictUnit T Extra) :
    settledUnit runtime others unit = settledUnit runtime units unit := by
  have hgroup := (h.filter (conflictKeyOf runtime · = conflictKeyOf runtime unit)).length_eq
  have hnewest (newest : ConflictUnit T Extra) := (newestUnits_perm runtime h (conflictKeyOf runtime unit)).mem_iff (a := newest)
  have hsuperseded : IsSuperseded runtime others unit ↔ IsSuperseded runtime units unit := by
    simp only [IsSuperseded, hnewest]
  have hreviewed : IsReviewed runtime others unit ↔ IsReviewed runtime units unit := by
    simp only [IsReviewed, hnewest, h.mem_iff]
  simp only [settledUnit, hgroup, hsuperseded, hreviewed]

theorem resolved_units (h : Chronological runtime units) :
    (resolve runtime units).1 = units.map (settledUnit runtime units) := by
  have hmap : units.zipIdx.map (written (unitWrites runtime units)) =
      units.zipIdx.map (settledUnit runtime units ∘ Prod.fst) :=
    List.map_congr_left fun entry hentry => written_eq h hentry
  rw [resolve, hmap, ← List.map_map, List.zipIdx_map_fst]

theorem mem_relations (h : Chronological runtime units) {relation : KnowledgeRelation} :
    relation ∈ (resolve runtime units).2 ↔ ∃ key, key ≠ "" ∧ ∃ newest ∈ newestUnits runtime units key, ∃ older ∈ units,
      conflictKeyOf runtime older = key ∧ older ≠ newest ∧ relation = relationOf runtime newest older := by
  rw [resolve, List.mem_map]
  constructor
  · rintro ⟨⟨latest, older⟩, hdecision, rfl⟩
    obtain ⟨hrivals, hne, hforemost⟩ := mem_decisions.mp hdecision
    have hnewest := hforemost.newest hrivals.left hrivals.keyed
    refine ⟨_, hrivals.keyed, latest.1, hnewest, older.1, List.fst_mem_of_mem_zipIdx hrivals.right, hrivals.key, ?_, rfl⟩
    intro heq
    exact hne (newest_unique (h.single _ hrivals.keyed) hrivals.right hrivals.left (heq ▸ hnewest) hnewest)
  · rintro ⟨key, hkey, newest, hnewest, older, holder, rfl, hne, rfl⟩
    obtain ⟨position, hposition⟩ := exists_entry (mem_newestUnits.mp hnewest).1
    obtain ⟨position', hposition'⟩ := exists_entry holder
    exact ⟨_, exists_decision h.single hposition hposition' hkey hnewest fun heq => hne (congrArg Prod.fst heq).symm, rfl⟩

end Settled

section Main
variable {T Extra : Type} [LinearOrder T] {runtime : ResolverRuntime} {units others : List (ConflictUnit T Extra)}
  {unit newest older : ConflictUnit T Extra} {key : String}

theorem strictlyNewer_of_lt (hlt : recency older < recency newest) (hdated : older.asOfTime ≠ none) :
    StrictlyNewer newest older := by
  obtain ⟨t', ht'⟩ := Option.ne_none_iff_exists'.mp hdated
  have hlt' : ((t' : T) : WithBot T) < recency newest := by
    have hrecency : recency older = (t' : WithBot T) := ht'
    rwa [hrecency] at hlt
  obtain ⟨t, ht, hless⟩ := WithBot.lt_iff_exists_coe.mp hlt'
  exact ⟨t, t', ht, ht', WithBot.coe_lt_coe.mp hless⟩

theorem Chronological.newer (h : Chronological runtime units) {entry other : UnitEntry T Extra}
    (hdecision : (entry, other) ∈ decisions runtime units) (hin : supersedesIn runtime entry.1 other.1 = true) :
    StrictlyNewer entry.1 other.1 := by
  obtain ⟨hrivals, hne, hforemost⟩ := mem_decisions.mp hdecision
  have hnewest := hforemost.newest hrivals.left hrivals.keyed
  have hmem := List.fst_mem_of_mem_zipIdx hrivals.right
  refine strictlyNewer_of_lt ?_ (h.dated _ hrivals.keyed entry.1 hnewest other.1 hmem hrivals.key hin)
  obtain ⟨_, _, hle⟩ := mem_newestUnits.mp hnewest
  refine (hle other.1 hmem hrivals.key).lt_of_ne fun heq => hne ?_
  refine newest_unique (h.single _ hrivals.keyed) hrivals.right hrivals.left (mem_newestUnits.mpr ⟨hmem, hrivals.key, ?_⟩) hnewest
  exact fun v hv hkey => heq ▸ hle v hv hkey

theorem Chronological.sound (h : Chronological runtime units) : SupersessionSound runtime units where
  related := fun decision hdecision htype =>
    have hin := relationType_supersedes.mp htype
    ⟨h.newer hdecision hin, contradicts_of_supersedesIn hin⟩
  marked := fun entry hentry hmark => by
    obtain ⟨decision, hdecision, hin, hposition⟩ := superseded_mem.mp hmark
    obtain ⟨hrivals, _⟩ := mem_decisions.mp hdecision
    obtain rfl := eq_of_position hentry hrivals.right hposition
    exact ⟨decision.1.1, List.fst_mem_of_mem_zipIdx hrivals.left, h.newer hdecision hin, contradicts_of_supersedesIn hin⟩
  orderFree := fun others hperm => by
    refine ⟨fun relation => ?_, ?_⟩
    · rw [mem_relations (h.perm hperm), mem_relations h]
      simp only [(newestUnits_perm runtime hperm _).mem_iff, hperm.mem_iff]
    · rw [resolved_units (h.perm hperm), resolved_units h,
        List.map_congr_left fun unit _ => settledUnit_perm hperm unit]
      exact hperm.map _

/-- If a newest unit is the first of the list, its group is decided for it. -/
theorem decisions_of_head {rest : List (ConflictUnit T Extra)}
    (hnewest : newest ∈ newestUnits runtime (newest :: rest) key) (hkey : key ≠ "") :
    Foremost runtime (newest :: rest) (newest, 0) := by
  obtain ⟨_, rfl, hle⟩ := mem_newestUnits.mp hnewest
  intro e hrivals hne
  refine (hle e.1 (List.fst_mem_of_mem_zipIdx hrivals.right) hrivals.key).lt_or_eq.imp id fun heq => ⟨heq.symm, ?_⟩
  refine Nat.pos_of_ne_zero fun hzero => hne (eq_of_position hrivals.right hrivals.left hzero)

theorem SupersessionSound.single (h : SupersessionSound runtime units) (huids : (units.map (·.knowledgeUid)).Nodup)
    (hkey : key ≠ "") : (newestUnits runtime units key).length ≤ 1 := by
  by_contra hseveral
  -- two newest units; each one is put first in turn
  obtain ⟨left, right, hleft, hright, hne⟩ : ∃ left right, left ∈ newestUnits runtime units key ∧
      right ∈ newestUnits runtime units key ∧ left.knowledgeUid ≠ right.knowledgeUid := by
    have hnodup : ((newestUnits runtime units key).map (·.knowledgeUid)).Nodup :=
      huids.sublist (List.filter_sublist.map _)
    cases hunits : newestUnits runtime units key with
    | nil => exact absurd (hunits ▸ Nat.zero_le 1) hseveral
    | cons left rest =>
      cases rest with
      | nil => exact absurd (hunits ▸ Nat.le_refl 1) hseveral
      | cons right rest =>
        rw [hunits] at hnodup
        refine ⟨left, right, List.mem_cons_self, List.mem_cons_of_mem _ List.mem_cons_self, fun heq => ?_⟩
        exact (List.nodup_cons.mp hnodup).1 (List.mem_cons.mpr (.inl heq))
  obtain ⟨hleftmem, hleftkey, _⟩ := mem_newestUnits.mp hleft
  obtain ⟨hrightmem, hrightkey, _⟩ := mem_newestUnits.mp hright
  obtain ⟨before, after, hsplit⟩ := List.append_of_mem hleftmem
  obtain ⟨before', after', hsplit'⟩ := List.append_of_mem hrightmem
  have hperm : (left :: (before ++ after)).Perm units := hsplit ▸ List.perm_middle.symm
  have hperm' : (right :: (before' ++ after')).Perm units := hsplit' ▸ List.perm_middle.symm
  have hrelation : relationOf runtime left right ∈ (resolve runtime (left :: (before ++ after))).2 := by
    obtain ⟨position, hposition⟩ := exists_entry (hperm.mem_iff.mpr hrightmem)
    have hhead : (left, 0) ∈ (left :: (before ++ after)).zipIdx := List.mem_cons_self
    refine List.mem_map.mpr ⟨((left, 0), (right, position)), mem_decisions.mpr ⟨⟨hhead, hposition, ?_, ?_⟩, ?_, ?_⟩, rfl⟩
    · exact hrightkey.trans hleftkey.symm
    · exact hleftkey ▸ hkey
    · exact fun heq => hne (congrArg (·.1.knowledgeUid) heq).symm
    · exact decisions_of_head ((newestUnits_perm runtime hperm key).mem_iff.mpr hleft) hkey
  rw [(h.orderFree _ hperm).1, ← (h.orderFree _ hperm').1] at hrelation
  obtain ⟨⟨latest, older⟩, hdecision, hsame⟩ := List.mem_map.mp hrelation
  obtain ⟨hrivals, _, hforemost⟩ := mem_decisions.mp hdecision
  have huid : latest.1.knowledgeUid = left.knowledgeUid := congrArg KnowledgeRelation.sourceUid hsame
  have hlatest : latest.1 = left := List.inj_on_of_nodup_map ((hperm'.map _).nodup_iff.mpr huids)
    (List.fst_mem_of_mem_zipIdx hrivals.left) (hperm'.mem_iff.mpr hleftmem) huid
  have hhead : (right, 0) ∈ (right :: (before' ++ after')).zipIdx := List.mem_cons_self
  have hother : (right, 0) ≠ latest := fun heq => hne (by rw [← hlatest, ← heq])
  have hahead := hforemost (right, 0) ⟨hrivals.left, hhead, by rw [hlatest, hleftkey]; exact hrightkey, hrivals.keyed⟩ hother
  have hfirst := decisions_of_head ((newestUnits_perm runtime hperm' key).mem_iff.mpr hright) hkey latest
    ⟨hhead, hrivals.left, by rw [hlatest, hleftkey]; exact hrightkey.symm, hrightkey ▸ hkey⟩ hother.symm
  exact hahead.asymm hfirst

theorem SupersessionSound.chronological (h : SupersessionSound runtime units)
    (huids : (units.map (·.knowledgeUid)).Nodup) : Chronological runtime units := by
  refine ⟨fun key => h.single huids, fun key hkey newest hnewest older holder hold hin => ?_⟩
  obtain ⟨position, hposition⟩ := exists_entry (mem_newestUnits.mp hnewest).1
  obtain ⟨position', hposition'⟩ := exists_entry holder
  subst hold
  have hdecision := exists_decision (fun key => h.single huids) hposition hposition' hkey hnewest
    (ne_of_contradicts (contradicts_of_supersedesIn hin))
  obtain ⟨⟨_, t', _, ht', _⟩, _⟩ := h.related _ hdecision (relationType_supersedes.mpr hin)
  rw [ht']
  exact Option.some_ne_none t'

/-- Supersession follows time if each conflict key has one newest unit and what it supersedes is dated. Where units are
told apart by their ids, this is needed. -/
theorem supersession_sound (runtime : ResolverRuntime) (units : List (ConflictUnit T Extra)) :
    (Chronological runtime units → SupersessionSound runtime units) ∧
      ((units.map (·.knowledgeUid)).Nodup → SupersessionSound runtime units → Chronological runtime units) :=
  ⟨fun h => h.sound, fun huids h => h.chronological huids⟩

/-- A state of the market, as two videos of one day see it. -/
def marketState (uid sentiment : String) : ConflictUnit Nat Unit where
  knowledgeUid := some (.str uid)
  conflictKey := some (.str "index:trend")
  asOfTime := some 0
  sentiment := some (.str sentiment)
  knowledgeKind := some (.str "STATE")
  conditionText := none
  invalidationText := none
  sourceVideoId := none
  conflictGroupId := none
  lifecycleStatus := some (.str "ACTIVE")
  verificationStatus := none
  extra := ()

def plainResolver : ResolverRuntime := ⟨fun _ => "None", id⟩

/-- The one that comes first supersedes the other, though neither is newer. -/
theorem tie_superseded : ¬ SupersessionSound plainResolver [marketState "a" "BULLISH", marketState "b" "BEARISH"] := by
  intro h
  have huids : ([marketState "a" "BULLISH", marketState "b" "BEARISH"].map (·.knowledgeUid)).Nodup := by decide
  have hsingle := (h.chronological huids).single "index:trend" (by decide)
  have hboth : newestUnits plainResolver [marketState "a" "BULLISH", marketState "b" "BEARISH"] "index:trend" =
      [marketState "a" "BULLISH", marketState "b" "BEARISH"] := rfl
  rw [hboth] at hsingle
  exact absurd hsingle (by decide)

end Main
end StockContent.Knowledge
