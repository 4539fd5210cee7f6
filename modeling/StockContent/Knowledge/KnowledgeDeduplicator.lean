import Mathlib.Order.Bounds.Basic
import StockContent.Ledger.Projector
import StockContent.Storage.Dict
import StockContent.Storage.StableSort

/-! Units that say the same become one: first those with the same hash, then those with the same claim. -/
namespace StockContent.Knowledge
open Storage Ledger

/-- The fields of a unit that are read or written, and what else it says. -/
structure DedupUnit (C E Extra : Type) where
  contentHash : Option Json
  semanticHash : Option Json
  statement : Option Json
  canonicalStatement : Option Json
  subjectKey : Option Json
  knowledgeKind : Option Json
  extractionConfidence : Option C
  evidence : List E
  extra : Extra

/-- `str` of values that are no strings, the characters that `\\s` matches, and whether two texts are nearly the same. -/
structure DedupRuntime where
  text : Json → String
  isSpace : Char → Bool
  similar : String → String → Bool

section Deduplicate
variable {C E Extra : Type} [LinearOrder C] [Zero C] [DecidableEq E] (runtime : DedupRuntime)

/-- The content hash, the semantic hash or the statement. -/
def dedupKey (unit : DedupUnit C E Extra) : String :=
  Json.strOf runtime.text
    ((((unit.contentHash.filter truthy).or (unit.semanticHash.filter truthy)).or unit.statement).getD .null)

def confidenceOf (unit : DedupUnit C E Extra) : C := unit.extractionConfidence.getD 0

/-- `existing_evidence.append(evidence)` where it is not in there. -/
def appendEvidence (existing : List E) (evidence : E) : List E :=
  if evidence ∈ existing then existing else existing ++ [evidence]

def mergeInto (existing unit : DedupUnit C E Extra) : DedupUnit C E Extra :=
  { existing with
    evidence := unit.evidence.foldl appendEvidence existing.evidence
    extractionConfidence := some (max (confidenceOf existing) (confidenceOf unit)) }

def seeUnit (seen : Dict String (DedupUnit C E Extra)) (unit : DedupUnit C E Extra) :
    Dict String (DedupUnit C E Extra) :=
  match seen.lookup (dedupKey runtime unit) with
  | none => seen.set (dedupKey runtime unit) unit
  | some existing => seen.set (dedupKey runtime unit) (mergeInto existing unit)

/-- The text of a unit without white space. -/
def claimText (unit : DedupUnit C E Extra) : String :=
  String.ofList ((Json.orText runtime.text ((unit.canonicalStatement.filter truthy).or unit.statement)).toList.filter
    fun c => !runtime.isSpace c)

def sameClaim (left right : DedupUnit C E Extra) : Bool :=
  let leftSubject := Json.orText runtime.text left.subjectKey
  let rightSubject := Json.orText runtime.text right.subjectKey
  let leftText := claimText runtime left
  let rightText := claimText runtime right
  if leftSubject ≠ "" ∧ rightSubject ≠ "" ∧ leftSubject ≠ rightSubject then false
  else if leftText = "" ∨ rightText = "" then false
  else if leftText = rightText ∨ leftText.toList <:+: rightText.toList ∨ rightText.toList <:+: leftText.toList then true
  else Json.orText runtime.text left.knowledgeKind = Json.orText runtime.text right.knowledgeKind &&
    runtime.similar leftText rightText

def SameClaim (left right : DedupUnit C E Extra) : Prop := sameClaim runtime left right = true

instance : DecidableRel (@SameClaim C E Extra runtime) := fun left right =>
  inferInstanceAs (Decidable (sameClaim runtime left right = true))

def deduplicate (units : List (DedupUnit C E Extra)) : List (DedupUnit C E Extra) :=
  absorbAll (SameClaim runtime) mergeInto ((units.foldl (seeUnit runtime) Table.empty).rows.map Prod.snd)

end Deduplicate

section Merging
variable {C E Extra : Type} [LinearOrder C] [Zero C] [DecidableEq E] {runtime : DedupRuntime}
  {units members : List (DedupUnit C E Extra)} {left right unit existing : DedupUnit C E Extra}

def SameKey (runtime : DedupRuntime) (left right : DedupUnit C E Extra) : Prop := dedupKey runtime left = dedupKey runtime right

instance : DecidableRel (@SameKey C E Extra runtime) := fun left right =>
  inferInstanceAs (Decidable (dedupKey runtime left = dedupKey runtime right))

theorem mem_appendEvidence {evidence other : E} {existing : List E} :
    other ∈ appendEvidence existing evidence ↔ other ∈ existing ∨ other = evidence := by
  rw [appendEvidence]
  split
  · rename_i h
    exact ⟨.inl, fun hor => hor.elim id fun heq => heq ▸ h⟩
  · rw [List.mem_append, List.mem_singleton]

theorem mem_foldl_appendEvidence {other : E} {existing added : List E} :
    other ∈ added.foldl appendEvidence existing ↔ other ∈ existing ∨ other ∈ added := by
  induction added generalizing existing with
  | nil => simp
  | cons evidence added ih => rw [List.foldl_cons, ih, mem_appendEvidence, List.mem_cons, or_assoc]

/-- The hash of the first unit stays that of the merged one. -/
theorem dedupKey_mergeInto (left right : DedupUnit C E Extra) :
    dedupKey runtime (mergeInto left right) = dedupKey runtime left := rfl

theorem sameKey_mergeInto_left (left right unit : DedupUnit C E Extra) :
    SameKey runtime (mergeInto left right) unit ↔ SameKey runtime left unit := Iff.rfl

theorem sameKey_mergeInto_right (left right unit : DedupUnit C E Extra) :
    SameKey runtime unit (mergeInto left right) ↔ SameKey runtime unit left := Iff.rfl

theorem sameClaim_mergeInto_left (left right unit : DedupUnit C E Extra) :
    SameClaim runtime (mergeInto left right) unit ↔ SameClaim runtime left unit := Iff.rfl

theorem sameClaim_mergeInto_right (left right unit : DedupUnit C E Extra) :
    SameClaim runtime unit (mergeInto left right) ↔ SameClaim runtime unit left := Iff.rfl

/-- A dictionary in which each unit stands under its own key. -/
def Keyed (runtime : DedupRuntime) (seen : Dict String (DedupUnit C E Extra)) : Prop :=
  ∀ entry ∈ seen.rows, entry.1 = dedupKey runtime entry.2

theorem absorb_keyed {rows : List (String × DedupUnit C E Extra)} (hn : (rows.map Prod.fst).Nodup)
    (hkeyed : ∀ entry ∈ rows, entry.1 = dedupKey runtime entry.2) (hmem : (dedupKey runtime unit, existing) ∈ rows) :
    (rows.map fun entry => if entry.1 = dedupKey runtime unit then (dedupKey runtime unit, mergeInto existing unit)
      else entry).map Prod.snd = absorb (SameKey runtime) mergeInto (rows.map Prod.snd) unit := by
  induction rows with
  | nil => cases hmem
  | cons entry rows ih =>
    obtain ⟨hfresh, hn⟩ := List.nodup_cons.mp hn
    obtain ⟨hkey, hkeyed⟩ := List.forall_mem_cons.mp hkeyed
    rw [List.map_cons, List.map_cons, List.map_cons, absorb]
    by_cases hsame : entry.1 = dedupKey runtime unit
    · have hentry : (dedupKey runtime unit, existing) = entry := by
        refine (List.mem_cons.mp hmem).resolve_right fun hrest => hfresh ?_
        rw [hsame]
        exact List.mem_map_of_mem hrest
      have hrest : (rows.map fun entry => if entry.1 = dedupKey runtime unit then
          (dedupKey runtime unit, mergeInto existing unit) else entry) = rows := by
        refine (List.map_congr_left fun other hother => if_neg fun hother' => hfresh ?_).trans (List.map_id _)
        rw [hsame, ← hother']
        exact List.mem_map_of_mem hother
      rw [if_pos hsame, if_pos (show SameKey runtime entry.2 unit from hkey.symm.trans hsame), hrest, ← hentry]
    · have hrest := (List.mem_cons.mp hmem).resolve_left fun heq => hsame (heq ▸ rfl)
      rw [if_neg hsame, if_neg (show ¬ SameKey runtime entry.2 unit from fun h => hsame (hkey.trans h)), ih hn hkeyed hrest]

theorem seeUnit_eq {seen : Dict String (DedupUnit C E Extra)} (h : Keyed runtime seen) (unit : DedupUnit C E Extra) :
    (seeUnit runtime seen unit).rows.map Prod.snd =
        absorb (SameKey runtime) mergeInto (seen.rows.map Prod.snd) unit ∧
      Keyed runtime (seeUnit runtime seen unit) := by
  rw [seeUnit]
  cases hlookup : seen.lookup (dedupKey runtime unit) with
  | none =>
    have hget : seen.get (dedupKey runtime unit) = none := Option.map_eq_none_iff.mp hlookup
    have hrows : (seen.set (dedupKey runtime unit) unit).rows = seen.rows ++ [(dedupKey runtime unit, unit)] :=
      Table.put_rows seen hget
    refine ⟨?_, ?_⟩
    · rw [hrows, List.map_append, List.map_singleton, absorb_of_fresh]
      intro other hother hsame
      obtain ⟨entry, hentry, rfl⟩ := List.mem_map.mp hother
      have hstored := Table.get_of_mem hentry
      rw [(h entry hentry).trans hsame, hget] at hstored
      cases hstored
    · rw [Keyed, hrows]
      exact List.forall_mem_append.mpr ⟨h, List.forall_mem_singleton.mpr rfl⟩
  | some existing =>
    have hmem := Dict.lookup_eq_some.mp hlookup
    have hget : seen.get (dedupKey runtime unit) = some (dedupKey runtime unit, existing) := Table.get_of_mem hmem
    have hrows : (seen.set (dedupKey runtime unit) (mergeInto existing unit)).rows =
        seen.rows.map fun entry => if entry.1 = dedupKey runtime unit then
          (dedupKey runtime unit, mergeInto existing unit) else entry := Table.put_rows_of_get seen hget
    refine ⟨?_, ?_⟩
    · rw [hrows]
      exact absorb_keyed seen.unique h hmem
    · rw [Keyed, hrows]
      refine List.forall_mem_map.mpr fun entry hentry => ?_
      split
      · exact (h _ hmem).trans (dedupKey_mergeInto existing unit).symm
      · exact h entry hentry

/-- The first pass takes units with the same key together. -/
theorem firstPass_eq (runtime : DedupRuntime) (units : List (DedupUnit C E Extra)) :
    (units.foldl (seeUnit runtime) Table.empty).rows.map Prod.snd = absorbAll (SameKey runtime) mergeInto units := by
  have hall : ∀ seen : Dict String (DedupUnit C E Extra), Keyed runtime seen →
      (units.foldl (seeUnit runtime) seen).rows.map Prod.snd =
        units.foldl (absorb (SameKey runtime) mergeInto) (seen.rows.map Prod.snd) := by
    induction units with
    | nil => exact fun _ _ => rfl
    | cons unit units ih =>
      intro seen hseen
      obtain ⟨hstep, hkeyed⟩ := seeUnit_eq hseen unit
      rw [List.foldl_cons, ih _ hkeyed, hstep, List.foldl_cons]
  exact hall Table.empty (List.forall_mem_nil _)

end Merging

section Conserved
variable {C E Extra : Type} [LinearOrder C] [Zero C] {runtime : DedupRuntime}
  {units members others : List (DedupUnit C E Extra)} {left right unit out : DedupUnit C E Extra}

/-- What a unit that others are merged into keeps of them. -/
structure Conserves (members : List (DedupUnit C E Extra)) (out : DedupUnit C E Extra) : Prop where
  first : ∃ first ∈ members, out =
    { first with evidence := out.evidence, extractionConfidence := out.extractionConfidence }
  evidence : ∀ evidence, evidence ∈ out.evidence ↔ ∃ member ∈ members, evidence ∈ member.evidence
  confidence : IsGreatest {confidence | ∃ member ∈ members, confidence = confidenceOf member} (confidenceOf out)

/-- Each member was judged the same: it has a key with the unit, or with one that makes the same claim. -/
structure MergedFrom (runtime : DedupRuntime) (members : List (DedupUnit C E Extra)) (out : DedupUnit C E Extra) : Prop
    extends Conserves members out where
  judged : ∀ member ∈ members, ∃ other ∈ members, dedupKey runtime member = dedupKey runtime other ∧
    (SameKey runtime out other ∨ SameClaim runtime out other)

theorem conserves_singleton (unit : DedupUnit C E Extra) : Conserves [unit] unit where
  first := ⟨unit, List.mem_singleton_self unit, rfl⟩
  evidence := fun evidence => by simp
  confidence := ⟨⟨unit, List.mem_singleton_self unit, rfl⟩, by
    rintro _ ⟨member, hmember, rfl⟩
    rw [List.mem_singleton.mp hmember]⟩

/-- A unit of the first pass has the key of all its members. -/
structure KeyMerged (runtime : DedupRuntime) (members : List (DedupUnit C E Extra)) (out : DedupUnit C E Extra) : Prop
    extends Conserves members out where
  keys : ∀ member ∈ members, SameKey runtime out member

theorem KeyMerged.mergedFrom (h : KeyMerged runtime members out) : MergedFrom runtime members out where
  toConserves := h.toConserves
  judged := fun member hmember => ⟨member, hmember, rfl, .inl (h.keys member hmember)⟩

variable [DecidableEq E]

theorem Conserves.merge (h : Conserves members left) (h' : Conserves others right) :
    Conserves (members ++ others) (mergeInto left right) where
  first := by
    obtain ⟨first, hfirst, heq⟩ := h.first
    refine ⟨first, List.mem_append_left _ hfirst, ?_⟩
    rw [mergeInto, heq]
  evidence := fun evidence => by
    rw [mergeInto, mem_foldl_appendEvidence, h.evidence, h'.evidence]
    simp only [List.mem_append, or_and_right, exists_or]
  confidence := by
    have hconfidence : confidenceOf (mergeInto left right) = max (confidenceOf left) (confidenceOf right) := rfl
    obtain ⟨⟨member, hmember, hgreatest⟩, hbound⟩ := h.confidence
    obtain ⟨⟨member', hmember', hgreatest'⟩, hbound'⟩ := h'.confidence
    rw [hconfidence]
    constructor
    · rcases max_choice (confidenceOf left) (confidenceOf right) with hmax | hmax
      · exact ⟨member, List.mem_append_left _ hmember, hmax.trans hgreatest⟩
      · exact ⟨member', List.mem_append_right _ hmember', hmax.trans hgreatest'⟩
    · rintro _ ⟨other, hother, rfl⟩
      rcases List.mem_append.mp hother with hin | hin
      · exact (hbound ⟨other, hin, rfl⟩).trans (le_max_left _ _)
      · exact (hbound' ⟨other, hin, rfl⟩).trans (le_max_right _ _)

theorem keyMerged_firstPass (runtime : DedupRuntime) (units : List (DedupUnit C E Extra)) :
    ∃ groups, groups.flatten.Perm units ∧
      List.Forall₂ (KeyMerged runtime) groups (absorbAll (SameKey runtime) mergeInto units) := by
  have hparts : List.Forall₂ (fun part unit => part = [unit]) (units.map fun unit => [unit]) units :=
    List.forall₂_map_left_iff.mpr (List.forall₂_same.mpr fun _ _ => rfl)
  have hflat : (units.map fun unit => [unit]).flatten = units := by
    rw [← List.flatMap_def, List.flatMap_singleton']
  rw [← hflat]
  obtain ⟨groups, hperm, hgroups⟩ : ∃ groups, groups.flatten.Perm (units.map fun unit => [unit]).flatten ∧
      List.Forall₂ (KeyMerged runtime) groups (absorbAll (SameKey runtime) mergeInto units) := by
    refine forall₂_absorbAll ?_ ?_ hparts
    · rintro _ unit rfl
      exact ⟨conserves_singleton unit, List.forall_mem_singleton.mpr rfl⟩
    · rintro group left _ unit hsame hgroup rfl
      exact ⟨hgroup.toConserves.merge (conserves_singleton unit),
        List.forall_mem_append.mpr ⟨hgroup.keys, List.forall_mem_singleton.mpr hsame⟩⟩
  exact ⟨groups, hperm, hflat.symm ▸ hgroups⟩

/-- A member of the second unit shares its key with the first of them, which makes the same claim as that unit. -/
theorem MergedFrom.merge (h : MergedFrom runtime members left) (h' : KeyMerged runtime others right)
    (hsame : SameClaim runtime left right) : MergedFrom runtime (members ++ others) (mergeInto left right) where
  toConserves := h.toConserves.merge h'.toConserves
  judged := fun member hmember => by
    rcases List.mem_append.mp hmember with hin | hin
    · obtain ⟨other, hother, hkey, hjudged⟩ := h.judged member hin
      exact ⟨other, List.mem_append_left _ hother, hkey, hjudged⟩
    · obtain ⟨first, hfirst, heq⟩ := h'.first
      refine ⟨first, List.mem_append_right _ hfirst, (h'.keys member hin).symm.trans (h'.keys first hfirst), .inr ?_⟩
      rw [heq] at hsame
      exact hsame

/-- The units that are left, against those that came in. -/
structure LosslessDedup (runtime : DedupRuntime) (units result : List (DedupUnit C E Extra)) : Prop where
  apart : result.Pairwise fun earlier later => ¬ SameKey runtime earlier later ∧ ¬ SameClaim runtime earlier later
  merged : ∃ groups, groups.flatten.Perm units ∧ List.Forall₂ (MergedFrom runtime) groups result
  idempotent : deduplicate runtime result = result

theorem deduplicate_eq (runtime : DedupRuntime) (units : List (DedupUnit C E Extra)) : deduplicate runtime units =
    absorbAll (SameClaim runtime) mergeInto (absorbAll (SameKey runtime) mergeInto units) :=
  congrArg (absorbAll (SameClaim runtime) mergeInto) (firstPass_eq runtime units)

theorem deduplicate_apart (runtime : DedupRuntime) (units : List (DedupUnit C E Extra)) :
    (deduplicate runtime units).Pairwise fun earlier later =>
      ¬ SameKey runtime earlier later ∧ ¬ SameClaim runtime earlier later := by
  have hkeys : (absorbAll (SameKey runtime) mergeInto units).Pairwise fun earlier later => ¬ SameKey runtime earlier later :=
    pairwise_absorbAll sameKey_mergeInto_left sameKey_mergeInto_right units
  rw [deduplicate_eq]
  refine List.Pairwise.and ?_ (pairwise_absorbAll sameClaim_mergeInto_left sameClaim_mergeInto_right _)
  have hsublist := map_absorbAll_sublist (SameClaim runtime) (@dedupKey_mergeInto C E Extra _ _ _ runtime)
    (absorbAll (SameKey runtime) mergeInto units)
  have hdistinct : ((absorbAll (SameKey runtime) mergeInto units).map (dedupKey runtime)).Pairwise (· ≠ ·) :=
    List.pairwise_map.mpr hkeys
  exact List.pairwise_map.mp (hdistinct.sublist hsublist)

/-- Deduplication loses nothing, and a second one changes nothing. -/
theorem deduplicate_lossless (runtime : DedupRuntime) (units : List (DedupUnit C E Extra)) :
    LosslessDedup runtime units (deduplicate runtime units) := by
  have hapart := deduplicate_apart runtime units
  refine ⟨hapart, ?_, ?_⟩
  · obtain ⟨parts, hperm, hparts⟩ := keyMerged_firstPass runtime units
    rw [deduplicate_eq]
    obtain ⟨groups, hjoined, hgroups⟩ : ∃ groups, groups.flatten.Perm parts.flatten ∧ List.Forall₂ (MergedFrom runtime) groups
        (absorbAll (SameClaim runtime) mergeInto (absorbAll (SameKey runtime) mergeInto units)) :=
      forall₂_absorbAll (fun _ _ h => h.mergedFrom) (fun _ _ _ _ hsame h h' => h.merge h' hsame) hparts
    exact ⟨groups, hjoined.trans hperm, hgroups⟩
  · rw [deduplicate_eq runtime (deduplicate runtime units), absorbAll_eq (hapart.imp And.left),
      absorbAll_eq (hapart.imp And.right)]

end Conserved
end StockContent.Knowledge
