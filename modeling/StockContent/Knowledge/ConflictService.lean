import Mathlib.Logic.Relation
import StockContent.Numeric.Binary64
import StockContent.Storage.Dict
import StockContent.Storage.Json
import StockContent.Storage.Procedure
import StockContent.Storage.StableSort

/-! Claims that say different things of one subject in one window of time are a conflict, kept until it is resolved. -/
namespace StockContent.Knowledge
open Storage Numeric

inductive ConflictStatus
  | opened
  | autoResolved
  | manualResolved
  | superseded
  deriving DecidableEq, Repr

def ConflictStatus.text : ConflictStatus → String
  | opened => "OPEN"
  | autoResolved => "AUTO_RESOLVED"
  | manualResolved => "MANUAL_RESOLVED"
  | superseded => "SUPERSEDED"

inductive ResolutionPolicy
  | higherSourceConfidence
  | externalVerificationWins
  | latestPublished
  | manualReview
  deriving DecidableEq, Repr

/-- A float from zero to one, in units of the least positive one. -/
@[ext] structure Confidence where
  units : Nat
  atMost : units ≤ Binary64.one

def Confidence.value (confidence : Confidence) : Binary64 := .finite confidence.units

/-- `top - runner_up >= 0.1`. -/
def clearlyAhead (top runnerUp : Confidence) : Bool := (Binary64.ofDecimal 1 1).le (top.value.sub runnerUp.value)

/-- A date is known by its ordinal, anything else by its text. -/
inductive FactTime
  | dated (ordinal : Int)
  | written (text : String)

/-- The fields of a financial claim that its conflicts depend on. -/
structure ConflictClaim where
  claimId : String
  subjectType : String
  subjectId : String
  predicate : String
  value : Json
  factTime : Option FactTime
  sourceConfidence : Confidence

inductive EvidenceValue
  | claimIds (ids : List String)
  | confidence (value : Confidence)
  | json (value : Json)

structure KnowledgeConflict where
  conflictId : String
  claimIds : List String
  conflictType : String
  resolutionStatus : ConflictStatus
  preferredClaimId : Option String
  resolutionPolicy : Option ResolutionPolicy
  resolutionEvidence : Dict String EvidenceValue
  conflictKey : String

inductive ConflictError
  | zeroDivision
  | indexError
  | keyError (conflictId : String)
  | valueError (message : String)

/-- `str` of values that are no strings, the first twenty digits of a digest, and the number that the first eight make. -/
structure ConflictRuntime where
  text : Json → String
  digest : String → String
  digestNumber : String → Nat

section Domain
variable (runtime : ConflictRuntime)

def conflictWindow (days : Int) : Option FactTime → Except ConflictError String
  | none => .ok "no-time"
  | some (.dated ordinal) => if days = 0 then .error .zeroDivision else .ok ("window-" ++ toString (ordinal.fdiv days))
  | some (.written text) => .ok ("window-" ++ toString (runtime.digestNumber text % 10000))

def ConflictClaim.conflictKeyOf (windowDays : Int) (claim : ConflictClaim) : Except ConflictError String := do
  let window ← conflictWindow runtime windowDays claim.factTime
  return String.intercalate "|" [claim.subjectType, claim.subjectId, claim.predicate, window]

/-- More than one claim, and more than one value. -/
def isConflict (group : List ConflictClaim) : Bool :=
  decide (1 < group.length) && decide (1 < (group.map fun claim => Json.strOf runtime.text claim.value).dedup.length)

def detectConflicts (windowDays : Int) (claims : List ConflictClaim) :
    Except ConflictError (List (List ConflictClaim)) := do
  let keyed ← claims.mapM fun claim => (fun key => (key, claim)) <$> ConflictClaim.conflictKeyOf runtime windowDays claim
  return ((Dict.groupBy Prod.fst keyed).rows.map fun entry => entry.2.map Prod.snd).filter (isConflict runtime)

def conflictIdOf (conflictKey : String) (claimIds : List String) : String :=
  "conflict-" ++ runtime.digest (conflictKey ++ "::" ++ String.intercalate "," (sortedBy id claimIds))

def resolutionEvidenceOf (entries : List (String × EvidenceValue)) : Dict String EvidenceValue :=
  Table.putAll Table.empty entries

def newConflict (conflictKey : String) (group : List ConflictClaim) : KnowledgeConflict :=
  let claimIds := sortedBy id (group.map ConflictClaim.claimId)
  { conflictId := conflictIdOf runtime conflictKey claimIds
    claimIds := claimIds
    conflictType := "VALUE_CONFLICT"
    resolutionStatus := .opened
    preferredClaimId := none
    resolutionPolicy := none
    resolutionEvidence := Table.empty
    conflictKey := conflictKey }

def externallyVerified (conflict : KnowledgeConflict) (claim : ConflictClaim) : KnowledgeConflict :=
  { conflict with
    resolutionStatus := .autoResolved
    preferredClaimId := some claim.claimId
    resolutionPolicy := some .externalVerificationWins
    resolutionEvidence := resolutionEvidenceOf [("verified_claim_ids", .claimIds [claim.claimId])] }

def higherConfidence (conflict : KnowledgeConflict) (top : ConflictClaim) (runnerUp : Confidence) : KnowledgeConflict :=
  { conflict with
    resolutionStatus := .autoResolved
    preferredClaimId := some top.claimId
    resolutionPolicy := some .higherSourceConfidence
    resolutionEvidence := resolutionEvidenceOf [("preferred_confidence", .confidence top.sourceConfidence),
      ("runner_up_confidence", .confidence runnerUp)] }

def leftOpen (conflict : KnowledgeConflict) : KnowledgeConflict :=
  { conflict with
    resolutionStatus := .opened
    resolutionPolicy := some .manualReview
    resolutionEvidence := resolutionEvidenceOf [("reason", .json (.str "CONFIDENCE_TOO_CLOSE"))] }

def decidedByConfidence (conflict : KnowledgeConflict) (top : ConflictClaim) (runnerUp : Confidence) :
    KnowledgeConflict :=
  if clearlyAhead top.sourceConfidence runnerUp then higherConfidence conflict top runnerUp else leftOpen conflict

def confidenceUnits (claim : ConflictClaim) : Nat := claim.sourceConfidence.units

def resolveByConfidence (conflict : KnowledgeConflict) (group : List ConflictClaim) :
    Except ConflictError KnowledgeConflict :=
  match group.argmax confidenceUnits, (descendingBy confidenceUnits group)[1]? with
  | some top, some runnerUp => .ok (decidedByConfidence conflict top runnerUp.sourceConfidence)
  | _, _ => .error .indexError

def verifiedInGroup (group : List ConflictClaim) (verified : Option (List String)) : List ConflictClaim :=
  group.filter fun claim => decide (claim.claimId ∈ verified.getD [])

/-- One verified claim wins; with none or several of them the confidences decide. -/
def resolveGroup (conflict : KnowledgeConflict) (group : List ConflictClaim) (verified : Option (List String)) :
    Except ConflictError KnowledgeConflict :=
  match verifiedInGroup group verified with
  | [claim] => .ok (externallyVerified conflict claim)
  | _ => resolveByConfidence conflict group

def autoResolve (group : List ConflictClaim) (verified : Option (List String)) : Except ConflictError KnowledgeConflict :=
  match group.head? with
  | none => .error .indexError
  | some first => do
    let conflictKey ← ConflictClaim.conflictKeyOf runtime 30 first
    resolveGroup (newConflict runtime conflictKey group) group verified

end Domain

/-- What is in memory. -/
structure ConflictService where
  claims : Dict String ConflictClaim
  conflicts : Dict String KnowledgeConflict

namespace ConflictService

def empty : ConflictService := ⟨Table.empty, Table.empty⟩

def storeClaims (service : ConflictService) (claims : List ConflictClaim) : ConflictService :=
  { service with claims := service.claims.putAll (claims.map fun claim => (claim.claimId, claim)) }

def setConflict (service : ConflictService) (conflictId : String) (conflict : KnowledgeConflict) : ConflictService :=
  { service with conflicts := service.conflicts.set conflictId conflict }

/-- A conflict is filed if it is new, or resolves one that is open. -/
def fileConflict (service : ConflictService) (conflict : KnowledgeConflict) : ConflictService × List KnowledgeConflict :=
  match service.conflicts.lookup conflict.conflictId with
  | none => (service.setConflict conflict.conflictId conflict, [conflict])
  | some existing =>
    if existing.resolutionStatus = .opened ∧ conflict.resolutionStatus ≠ .opened then
      (service.setConflict conflict.conflictId conflict, [conflict])
    else (service, [])

variable (runtime : ConflictRuntime)

def registerGroup (verified : Option (List String)) (group : List ConflictClaim) :
    Procedure ConflictService ConflictError (List KnowledgeConflict) :=
  Procedure.transact fun service => do
    let conflict ← autoResolve runtime group verified
    return service.fileConflict conflict

def registerGroups (verified : Option (List String)) :
    List (List ConflictClaim) → Procedure ConflictService ConflictError (List KnowledgeConflict)
  | [] => pure []
  | group :: groups => do
    let created ← registerGroup runtime verified group
    let rest ← registerGroups verified groups
    return created ++ rest

/-- The claims are stored before their conflicts are looked for. -/
def registerClaims (claims : List ConflictClaim) (verified : Option (List String)) (windowDays : Int) :
    Procedure ConflictService ConflictError (List KnowledgeConflict) := do
  let service ← get
  set (service.storeClaims claims)
  match detectConflicts runtime windowDays ((service.storeClaims claims).claims.rows.map Prod.snd) with
  | .error e => throw e
  | .ok groups => registerGroups runtime verified groups

def manuallyResolved (conflict : KnowledgeConflict) (preferredClaimId : String)
    (evidence : List (String × EvidenceValue)) :
    KnowledgeConflict :=
  { conflict with
    resolutionStatus := .manualResolved
    preferredClaimId := some preferredClaimId
    resolutionPolicy := some .manualReview
    resolutionEvidence := resolutionEvidenceOf evidence }

def manualResolve (conflictId preferredClaimId : String) (evidence : Option (List (String × EvidenceValue))) :
    Procedure ConflictService ConflictError KnowledgeConflict :=
  Procedure.transact fun service =>
    match service.conflicts.lookup conflictId with
    | none => .error (.keyError conflictId)
    | some conflict =>
      if conflict.resolutionStatus = .manualResolved ∨ conflict.resolutionStatus = .superseded then
        .error (.valueError ("conflict already resolved: " ++ conflict.resolutionStatus.text))
      else if preferredClaimId ∉ conflict.claimIds then
        .error (.valueError "preferred_claim_id must be part of the conflict")
      else
        let resolved := manuallyResolved conflict preferredClaimId (evidence.getD [])
        .ok (service.setConflict conflictId resolved, resolved)

def supersededConflict (conflict : KnowledgeConflict) (reason : String) : KnowledgeConflict :=
  { conflict with
    resolutionStatus := .superseded
    resolutionEvidence := conflict.resolutionEvidence.set "superseded_reason" (.json (.str reason)) }

def supersede (conflictId reason : String) : Procedure ConflictService ConflictError KnowledgeConflict :=
  Procedure.transact fun service =>
    match service.conflicts.lookup conflictId with
    | none => .error (.keyError conflictId)
    | some conflict =>
      .ok (service.setConflict conflictId (supersededConflict conflict reason), supersededConflict conflict reason)

inductive Call
  | registerClaims (claims : List ConflictClaim) (verified : Option (List String)) (windowDays : Int)
  | manualResolve (conflictId preferredClaimId : String) (evidence : Option (List (String × EvidenceValue)))
  | supersede (conflictId reason : String)

def perform : Call → Procedure ConflictService ConflictError (List KnowledgeConflict)
  | .registerClaims claims verified windowDays => registerClaims runtime claims verified windowDays
  | .manualResolve conflictId preferredClaimId evidence => do
    let resolved ← manualResolve conflictId preferredClaimId evidence
    return [resolved]
  | .supersede conflictId reason => do
    let superseded ← supersede conflictId reason
    return [superseded]

/-- A call that raises leaves what it had written. -/
def machine : Machine ConflictService Call (Except ConflictError (List KnowledgeConflict)) where
  exec service call := (perform runtime call).exec service

end ConflictService

section Resolution
variable {runtime : ConflictRuntime} {group others : List ConflictClaim} {verified : Option (List String)}
  {conflict : KnowledgeConflict} {claim top runnerUp : ConflictClaim} {rest : List ConflictClaim}

theorem roundUnits_tenth_pos : 0 < roundUnits Binary64.one 10 := by
  have hpow : 2 ^ 4 ≤ 2 ^ Binary64.leastExponent := Nat.pow_le_pow_right (by decide) (by decide)
  have hten : 1 * 10 ≤ Binary64.one * 1 := by
    rw [Nat.mul_one, Nat.one_mul, Binary64.one]
    exact le_trans (by decide) hpow
  have hunit := roundUnits_eq_self (n := 1) ⟨1, 0, by decide, rfl⟩ Nat.one_pos
  rw [Nat.one_mul] at hunit
  have hle := roundUnits_mono Nat.one_pos (by decide) hten
  rw [hunit] at hle
  exact hle

/-- Equal confidences are not apart. -/
theorem clearlyAhead_tie {top runnerUp : Confidence} (h : top.units = runnerUp.units) :
    clearlyAhead top runnerUp = false := by
  have hzero : top.value.sub runnerUp.value = .finite 0 := by
    have hexact := Binary64.ofQuotient_natural (Nat.zero_le (2 ^ 53)) Nat.one_pos
    rw [Nat.zero_mul, Nat.zero_mul, Binary64.natural, Nat.zero_mul] at hexact
    rw [Confidence.value, Confidence.value, h, Binary64.sub, Binary64.neg, Binary64.add, Int.add_right_neg]
    exact hexact
  have htenth : Binary64.ofDecimal 1 1 = Binary64.ofQuotient (Binary64.one : Nat) 10 := by
    rw [Binary64.ofDecimal, Nat.one_mul, Nat.pow_one]
  have hpos := roundUnits_tenth_pos
  rw [clearlyAhead, hzero, htenth, Binary64.ofQuotient_of_nonneg (Int.natCast_nonneg _), Int.natAbs_natCast]
  generalize roundUnits Binary64.one 10 = units at hpos
  split
  · exact decide_eq_false (not_le.mpr (Int.natCast_pos.mpr hpos))
  · rfl

theorem byConfidence_tie {runnerUp : Confidence} (h : top.sourceConfidence.units = runnerUp.units) :
    decidedByConfidence conflict top runnerUp = leftOpen conflict := by
  rw [decidedByConfidence, clearlyAhead_tie h, if_neg Bool.false_ne_true]

/-- The first two in order decide. Where they are level, it does not matter which of them is the greatest. -/
theorem resolveByConfidence_eq (h : descendingBy confidenceUnits group = top :: runnerUp :: rest)
    (conflict : KnowledgeConflict) :
    resolveByConfidence conflict group = .ok (decidedByConfidence conflict top runnerUp.sourceConfidence) := by
  classical
  have hgreatest := greatest_of_descendingBy h
  obtain ⟨best, hbest⟩ : ∃ best, group.argmax confidenceUnits = some best := argmax_isSome_of_mem hgreatest.1
  have hsecond : (descendingBy confidenceUnits group)[1]? = some runnerUp := by
    rw [h]
    rfl
  rw [resolveByConfidence, hbest, hsecond]
  have hbest' := greatest_of_argmax hbest
  by_cases hlead : confidenceUnits runnerUp < confidenceUnits top
  · rw [eq_of_lead h hlead hbest']
  · have hrunner : runnerUp ∈ group := mem_descendingBy.mp (h ▸ List.mem_cons_of_mem _ List.mem_cons_self)
    have htop : confidenceUnits top = confidenceUnits runnerUp := le_antisymm (not_lt.mp hlead) (hgreatest.2 _ hrunner)
    have hlevel : confidenceUnits best = confidenceUnits runnerUp :=
      le_antisymm ((hgreatest.2 best hbest'.1).trans htop.le) (hbest'.2 _ hrunner)
    exact congrArg Except.ok ((byConfidence_tie hlevel).trans (byConfidence_tie htop).symm)

theorem resolveByConfidence_short (h : (descendingBy confidenceUnits group).length < 2) (conflict : KnowledgeConflict) :
    resolveByConfidence conflict group = .error .indexError := by
  have hsecond : (descendingBy confidenceUnits group)[1]? = none := List.getElem?_eq_none (Nat.le_of_lt_succ h)
  rw [resolveByConfidence, hsecond]
  split
  · rename_i hnone
    cases hnone
  · rfl

theorem resolveByConfidence_perm (h : group.Perm others) (conflict : KnowledgeConflict) :
    resolveByConfidence conflict group = resolveByConfidence conflict others := by
  have hunits : (descendingBy confidenceUnits group).map confidenceUnits =
      (descendingBy confidenceUnits others).map confidenceUnits := map_descendingBy_eq_of_perm h
  have hlength := congrArg List.length hunits
  rw [List.length_map, List.length_map] at hlength
  cases hgroup : descendingBy confidenceUnits group with
  | nil =>
    rw [hgroup] at hlength
    rw [resolveByConfidence_short (by rw [hgroup]; decide), resolveByConfidence_short (by rw [← hlength]; decide)]
  | cons top tail =>
    cases tail with
    | nil =>
      rw [hgroup, List.length_singleton] at hlength
      rw [resolveByConfidence_short (by rw [hgroup, List.length_singleton]; decide),
        resolveByConfidence_short (by rw [← hlength]; decide)]
    | cons runnerUp rest =>
      rw [hgroup, List.map_cons, List.map_cons] at hunits
      obtain ⟨top', tail', hothers, htop, htail⟩ := List.map_eq_cons_iff.mp hunits.symm
      obtain ⟨runnerUp', rest', rfl, hrunner, -⟩ := List.map_eq_cons_iff.mp htail
      rw [resolveByConfidence_eq hgroup, resolveByConfidence_eq hothers]
      by_cases hlead : confidenceUnits runnerUp < confidenceUnits top
      · have hsame : top' = top := eq_of_lead hgroup hlead ((greatest_of_descendingBy hothers).perm h)
        have hconfidence : runnerUp'.sourceConfidence = runnerUp.sourceConfidence := Confidence.ext hrunner
        rw [hsame, hconfidence]
      · have hrunnerMem : runnerUp ∈ group := mem_descendingBy.mp (hgroup ▸ List.mem_cons_of_mem _ List.mem_cons_self)
        have hlevel : confidenceUnits top = confidenceUnits runnerUp :=
          le_antisymm (not_lt.mp hlead) ((greatest_of_descendingBy hgroup).2 _ hrunnerMem)
        have hlevel' : confidenceUnits top' = confidenceUnits runnerUp' := htop.trans (hlevel.trans hrunner.symm)
        rw [byConfidence_tie hlevel, byConfidence_tie hlevel']

theorem newConflict_perm (h : group.Perm others) (conflictKey : String) :
    newConflict runtime conflictKey group = newConflict runtime conflictKey others := by
  have hids : sortedBy id (group.map ConflictClaim.claimId) = sortedBy id (others.map ConflictClaim.claimId) :=
    sortedBy_eq_of_perm (h.map _) fun _ _ _ _ heq => heq
  rw [newConflict, hids]
  rfl

theorem resolveGroup_of_length_ne (h : (verifiedInGroup group verified).length ≠ 1) (conflict : KnowledgeConflict) :
    resolveGroup conflict group verified = resolveByConfidence conflict group := by
  rw [resolveGroup]
  split
  · rename_i heq
    exact absurd (congrArg List.length heq) h
  · rfl

theorem resolveGroup_of_singleton (h : verifiedInGroup group verified = [claim]) (conflict : KnowledgeConflict) :
    resolveGroup conflict group verified = .ok (externallyVerified conflict claim) := by
  rw [resolveGroup, h]

theorem resolveGroup_perm (h : group.Perm others) (conflict : KnowledgeConflict) :
    resolveGroup conflict group verified = resolveGroup conflict others verified := by
  have hverified : (verifiedInGroup group verified).Perm (verifiedInGroup others verified) := h.filter _
  by_cases hone : (verifiedInGroup group verified).length = 1
  · obtain ⟨claim, hclaim⟩ := List.length_eq_one_iff.mp hone
    rw [hclaim] at hverified
    rw [resolveGroup_of_singleton hclaim, resolveGroup_of_singleton (List.singleton_perm.mp hverified).symm]
  · rw [resolveGroup_of_length_ne hone, resolveGroup_of_length_ne (hverified.length_eq ▸ hone),
      resolveByConfidence_perm h]

/-- The claims of a conflict are of one subject, one predicate and one window of thirty days. -/
def SharesKey (runtime : ConflictRuntime) (group : List ConflictClaim) (conflictKey : String) : Prop :=
  ∀ claim ∈ group, ConflictClaim.conflictKeyOf runtime 30 claim = .ok conflictKey

theorem autoResolve_eq {conflictKey : String} (h : SharesKey runtime group conflictKey) (hne : group ≠ []) :
    autoResolve runtime group verified = resolveGroup (newConflict runtime conflictKey group) group verified := by
  obtain ⟨first, rest, rfl⟩ := List.exists_cons_of_ne_nil hne
  rw [autoResolve, List.head?_cons]
  simp only [h first List.mem_cons_self, ok_bind]

theorem conflictKey_groups {windowDays : Int} {claims : List ConflictClaim} {groups : List (List ConflictClaim)}
    (h : detectConflicts runtime windowDays claims = .ok groups) (hgroup : group ∈ groups) :
    isConflict runtime group = true ∧ ∃ conflictKey, ∀ claim ∈ group,
      ConflictClaim.conflictKeyOf runtime windowDays claim = .ok conflictKey := by
  obtain ⟨keyed, hkeyed, h⟩ := bind_eq_ok.mp h
  cases h
  obtain ⟨hmem, hconflict⟩ := List.mem_filter.mp hgroup
  obtain ⟨entry, hentry, rfl⟩ := List.mem_map.mp hmem
  refine ⟨hconflict, entry.1, fun claim hclaim => ?_⟩
  obtain ⟨pair, hpair, rfl⟩ := List.mem_map.mp hclaim
  rw [(Dict.mem_groupBy.mp hentry).1] at hpair
  obtain ⟨hpair, hkey⟩ := List.mem_filter.mp hpair
  obtain ⟨claim, -, hclaim⟩ := mem_of_mapM hkeyed hpair
  obtain ⟨conflictKey, hconflictKey, rfl⟩ := map_eq_ok.mp hclaim
  rw [hconflictKey, ← of_decide_eq_true hkey]

/-- The claim that is preferred for its confidence is ahead of the best of the others. -/
def Leads (group : List ConflictClaim) (top : ConflictClaim) : Prop :=
  ∃ runnerUp ∈ group, clearlyAhead top.sourceConfidence runnerUp.sourceConfidence = true ∧
    ∀ other ∈ group, other ≠ top → confidenceUnits other ≤ confidenceUnits runnerUp

/-- What a conflict says of its claims. -/
structure Decided (runtime : ConflictRuntime) (conflictKey : String) (group : List ConflictClaim)
    (verified : Option (List String)) (conflict : KnowledgeConflict) : Prop where
  key : conflict.conflictKey = conflictKey
  claimIds : conflict.claimIds.Perm (group.map ConflictClaim.claimId)
  conflictId : conflict.conflictId = conflictIdOf runtime conflictKey conflict.claimIds
  verifiedWins : ∀ claim, verifiedInGroup group verified = [claim] →
    conflict.resolutionStatus = .autoResolved ∧ conflict.preferredClaimId = some claim.claimId
  confidenceWins : (verifiedInGroup group verified).length ≠ 1 →
    (conflict.resolutionStatus = .opened ∧ conflict.preferredClaimId = none) ∨
      ∃ top ∈ group, conflict.resolutionStatus = .autoResolved ∧ conflict.preferredClaimId = some top.claimId ∧
        Leads group top

theorem decided_of_confidence {conflictKey : String} (h : descendingBy confidenceUnits group = top :: runnerUp :: rest)
    (hverified : (verifiedInGroup group verified).length ≠ 1) :
    Decided runtime conflictKey group verified
      (decidedByConfidence (newConflict runtime conflictKey group) top runnerUp.sourceConfidence) := by
  have hids : (sortedBy id (group.map ConflictClaim.claimId)).Perm (group.map ConflictClaim.claimId) := perm_sortedBy id _
  have hsingle : ∀ claim, verifiedInGroup group verified ≠ [claim] := fun claim heq =>
    hverified (congrArg List.length heq)
  have hmem {claim : ConflictClaim} (hclaim : claim ∈ top :: runnerUp :: rest) : claim ∈ group :=
    mem_descendingBy.mp (h ▸ hclaim)
  rw [decidedByConfidence]
  split
  · rename_i hahead
    refine ⟨rfl, hids, rfl, fun claim heq => absurd heq (hsingle claim), fun _ => .inr ?_⟩
    refine ⟨top, hmem List.mem_cons_self, rfl, rfl, runnerUp, hmem (List.mem_cons_of_mem _ List.mem_cons_self), hahead, ?_⟩
    intro other hother hne
    exact le_second h (mem_descendingBy.mpr hother) hne
  · exact ⟨rfl, hids, rfl, fun claim heq => absurd heq (hsingle claim), fun _ => .inl ⟨rfl, rfl⟩⟩

theorem resolveGroup_decided (hlength : 2 ≤ group.length) (conflictKey : String) (verified : Option (List String)) :
    ∃ conflict, resolveGroup (newConflict runtime conflictKey group) group verified = .ok conflict ∧
      Decided runtime conflictKey group verified conflict := by
  by_cases hone : (verifiedInGroup group verified).length = 1
  · obtain ⟨claim, hclaim⟩ := List.length_eq_one_iff.mp hone
    have hids : (sortedBy id (group.map ConflictClaim.claimId)).Perm (group.map ConflictClaim.claimId) :=
      perm_sortedBy id _
    refine ⟨_, resolveGroup_of_singleton hclaim _, rfl, hids, rfl, ?_, fun hne => absurd hone hne⟩
    intro other hother
    obtain rfl : claim = other := List.singleton_inj.mp (hclaim.symm.trans hother)
    exact ⟨rfl, rfl⟩
  · have hordered : 2 ≤ (descendingBy confidenceUnits group).length := by
      rw [(perm_descendingBy confidenceUnits group).length_eq]
      exact hlength
    obtain ⟨top, runnerUp, rest, h⟩ : ∃ top runnerUp rest, descendingBy confidenceUnits group =
      top :: runnerUp :: rest := by
      cases hlist : descendingBy confidenceUnits group with
      | nil => simp [hlist] at hordered
      | cons top tail =>
        cases tail with
        | nil => simp [hlist] at hordered
        | cons runnerUp rest => exact ⟨top, runnerUp, rest, rfl⟩
    rw [resolveGroup_of_length_ne hone, resolveByConfidence_eq h]
    exact ⟨_, rfl, decided_of_confidence h hone⟩

/-- A detected conflict is resolved in one way, whatever the order of its claims, and one verified claim wins. -/
structure ConflictResolution (runtime : ConflictRuntime) : Prop where
  detected : ∀ claims groups, detectConflicts runtime 30 claims = .ok groups → ∀ group ∈ groups,
    2 ≤ group.length ∧ ∃ conflictKey, SharesKey runtime group conflictKey
  decided : ∀ group conflictKey, 2 ≤ group.length → SharesKey runtime group conflictKey → ∀ verified,
    ∃ conflict, Decided runtime conflictKey group verified conflict ∧
      ∀ others : List ConflictClaim, group.Perm others → autoResolve runtime others verified = .ok conflict

end Resolution

namespace ConflictService
variable {runtime : ConflictRuntime} {service next start : ConflictService} {conflict record : KnowledgeConflict}

/-- What a call does to the service, one write at a time. -/
inductive Change (runtime : ConflictRuntime) (service : ConflictService) : ConflictService → Prop
  | stored (claims : List ConflictClaim) : Change runtime service (service.storeClaims claims)
  | filed {group verified conflict} (h : autoResolve runtime group verified = .ok conflict)
      (hopen : ∀ existing, service.conflicts.lookup conflict.conflictId = some existing →
        existing.resolutionStatus = .opened) :
      Change runtime service (service.setConflict conflict.conflictId conflict)
  | resolved {conflictId conflict} (preferred : String) (evidence : List (String × EvidenceValue))
      (hlookup : service.conflicts.lookup conflictId = some conflict)
      (hstatus : conflict.resolutionStatus ≠ .manualResolved ∧ conflict.resolutionStatus ≠ .superseded)
      (hmember : preferred ∈ conflict.claimIds) :
      Change runtime service (service.setConflict conflictId (manuallyResolved conflict preferred evidence))
  | superseded {conflictId conflict} (reason : String) (hlookup : service.conflicts.lookup conflictId = some conflict) :
      Change runtime service (service.setConflict conflictId (supersededConflict conflict reason))

def Changes (runtime : ConflictRuntime) : ConflictService → ConflictService → Prop :=
  Relation.ReflTransGen (Change runtime)

theorem fileConflict_changes {group : List ConflictClaim} {verified : Option (List String)}
    (h : autoResolve runtime group verified = .ok conflict) :
    Changes runtime service (service.fileConflict conflict).1 := by
  rw [fileConflict]
  split
  · rename_i hfree
    exact .single (.filed h fun existing hexisting => by rw [hfree] at hexisting; cases hexisting)
  · rename_i existing hexisting
    split
    · rename_i hopen
      refine .single (.filed h fun other hother => ?_)
      obtain rfl : existing = other := Option.some.inj (hexisting.symm.trans hother)
      exact hopen.1
    · exact .refl

theorem registerGroup_changes (verified : Option (List String)) (group : List ConflictClaim) :
    Procedure.Preserves (Changes runtime start) (registerGroup runtime verified group) := by
  refine Procedure.Preserves.transact fun service next created hstart h => ?_
  obtain ⟨conflict, hconflict, h⟩ := bind_eq_ok.mp h
  have hnext : (service.fileConflict conflict).1 = next := congrArg Prod.fst (Except.ok.inj h)
  exact hnext ▸ hstart.trans (fileConflict_changes hconflict)

theorem registerGroups_changes (verified : Option (List String)) (groups : List (List ConflictClaim)) :
    Procedure.Preserves (Changes runtime start) (registerGroups runtime verified groups) := by
  induction groups with
  | nil => exact Procedure.Preserves.pure _
  | cons group groups ih =>
    exact (registerGroup_changes verified group).bind fun _ => ih.bind fun _ => Procedure.Preserves.pure _

theorem registerClaims_changes (claims : List ConflictClaim) (verified : Option (List String)) (windowDays : Int) :
    Procedure.Preserves (Changes runtime start) (registerClaims runtime claims verified windowDays) := by
  refine Procedure.Preserves.get_bind fun service hservice => ?_
  rw [Procedure.exec_bind_ok (Procedure.exec_set service (service.storeClaims claims))]
  have hstored := hservice.tail (.stored claims)
  split
  · exact hstored
  · exact registerGroups_changes verified _ _ hstored

theorem manualResolve_changes (conflictId preferred : String) (evidence : Option (List (String × EvidenceValue))) :
    Procedure.Preserves (Changes runtime start) (manualResolve conflictId preferred evidence) := by
  refine Procedure.Preserves.transact fun service next resolved hstart h => ?_
  split at h
  · cases h
  · rename_i conflict hlookup
    split at h
    · cases h
    · rename_i hstatus
      split at h
      · cases h
      · rename_i hmember
        cases h
        exact hstart.tail (.resolved preferred (evidence.getD []) hlookup (not_or.mp hstatus) (not_not.mp hmember))

theorem supersede_changes (conflictId reason : String) :
    Procedure.Preserves (Changes runtime start) (supersede conflictId reason) := by
  refine Procedure.Preserves.transact fun service next superseded hstart h => ?_
  split at h
  · cases h
  · rename_i conflict hlookup
    cases h
    exact hstart.tail (.superseded reason hlookup)

theorem step_changes (service : ConflictService) (call : Call) :
    Changes runtime service ((machine runtime).step service call) := by
  have hstart : Changes runtime service service := .refl
  cases call with
  | registerClaims claims verified windowDays => exact registerClaims_changes claims verified windowDays service hstart
  | manualResolve conflictId preferred evidence =>
    exact (manualResolve_changes conflictId preferred evidence).bind (fun _ => Procedure.Preserves.pure _) service hstart
  | supersede conflictId reason =>
    exact (supersede_changes conflictId reason).bind (fun _ => Procedure.Preserves.pure _) service hstart

theorem changes_preserve {I : ConflictService → Prop} (hchange : ∀ s t, Change runtime s t → I s → I t)
    (h : Changes runtime service next) (hservice : I service) : I next := by
  induction h with
  | refl => exact hservice
  | tail _ hlast ih => exact hchange _ _ hlast ih

@[simp] theorem lookup_setConflict (service : ConflictService) (conflictId : String) (conflict : KnowledgeConflict)
    (other : String) :
    (service.setConflict conflictId conflict).conflicts.lookup other =
      if conflictId = other then some conflict else service.conflicts.lookup other := Dict.lookup_set _ _ _ _

def rank : ConflictStatus → Nat
  | .opened => 0
  | .autoResolved => 1
  | .manualResolved => 2
  | .superseded => 3

/-- A conflict never falls back, and one that was resolved by hand can only be superseded, with its preferred claim. -/
structure Advanced (record next : KnowledgeConflict) : Prop where
  rank : rank record.resolutionStatus ≤ rank next.resolutionStatus
  kept : 2 ≤ ConflictService.rank record.resolutionStatus → next =
    { record with resolutionStatus := next.resolutionStatus, resolutionEvidence := next.resolutionEvidence }
  unchanged : record.resolutionStatus = .manualResolved → next.resolutionStatus = .manualResolved → next = record

theorem Advanced.refl (record : KnowledgeConflict) : Advanced record record := ⟨le_rfl, fun _ => rfl, fun _ _ => rfl⟩

theorem eq_manual_of_rank {status : ConflictStatus} (hlow : 2 ≤ rank status) (hhigh : rank status ≤ 2) :
    status = .manualResolved := by
  cases status
  · exact absurd hlow (by decide)
  · exact absurd hlow (by decide)
  · rfl
  · exact absurd hhigh (by decide)

theorem Advanced.trans {first second third : KnowledgeConflict} (h : Advanced first second) (h' : Advanced second third) :
    Advanced first third where
  rank := h.rank.trans h'.rank
  kept := fun hrank => by
    have hsecond := h.kept hrank
    have hthird := h'.kept (hrank.trans h.rank)
    rw [hthird, hsecond]
  unchanged := fun hfirst hthird => by
    have hlow := h.rank
    have hhigh := h'.rank
    rw [hfirst] at hlow
    rw [hthird] at hhigh
    have hsecond := eq_manual_of_rank hlow hhigh
    rw [h'.unchanged hsecond hthird, h.unchanged hfirst hsecond]

/-- Every conflict is still there, or what became of it. -/
def Onward (service next : ConflictService) : Prop :=
  ∀ conflictId record, service.conflicts.lookup conflictId = some record →
    ∃ later, next.conflicts.lookup conflictId = some later ∧ Advanced record later

theorem onward_set {conflictId : String} (h : ∀ existing, service.conflicts.lookup conflictId = some existing →
    Advanced existing conflict) : Onward service (service.setConflict conflictId conflict) := by
  intro other record hrecord
  rw [lookup_setConflict]
  split
  · rename_i heq
    subst heq
    exact ⟨conflict, rfl, h record hrecord⟩
  · exact ⟨record, hrecord, .refl record⟩

theorem onward_of_change (h : Change runtime service next) : Onward service next := by
  cases h with
  | stored claims => exact fun _ record hrecord => ⟨record, hrecord, .refl record⟩
  | filed h hopen =>
    refine onward_set fun existing hexisting => ?_
    have hstatus := hopen existing hexisting
    refine ⟨?_, ?_, ?_⟩
    · rw [hstatus]
      exact Nat.zero_le _
    · rw [hstatus]
      exact fun hrank => absurd hrank (by decide)
    · rw [hstatus]
      exact fun hmanual => by cases hmanual
  | @resolved conflictId conflict preferred evidence hlookup hstatus hmember =>
    refine onward_set fun existing hexisting => ?_
    obtain rfl : conflict = existing := Option.some.inj (hlookup.symm.trans hexisting)
    have hrank : rank conflict.resolutionStatus < 2 := by
      refine Nat.lt_of_not_le fun hlow => ?_
      cases hcase : conflict.resolutionStatus
      · rw [hcase] at hlow; exact absurd hlow (by decide)
      · rw [hcase] at hlow; exact absurd hlow (by decide)
      · exact hstatus.1 hcase
      · exact hstatus.2 hcase
    exact ⟨hrank.le, fun hlow => absurd hlow (Nat.not_le_of_lt hrank), fun hmanual => absurd hmanual hstatus.1⟩
  | @superseded conflictId conflict reason hlookup =>
    refine onward_set fun existing hexisting => ?_
    obtain rfl : conflict = existing := Option.some.inj (hlookup.symm.trans hexisting)
    refine ⟨?_, fun _ => rfl, fun _ hmanual => by cases hmanual⟩
    change rank conflict.resolutionStatus ≤ 3
    cases conflict.resolutionStatus <;> decide

theorem Onward.trans {first second third : ConflictService} (h : Onward first second) (h' : Onward second third) :
    Onward first third := by
  intro conflictId record hrecord
  obtain ⟨middle, hmiddle, hadvanced⟩ := h conflictId record hrecord
  obtain ⟨last, hlast, hadvanced'⟩ := h' conflictId middle hmiddle
  exact ⟨last, hlast, hadvanced.trans hadvanced'⟩

theorem onward_run (service : ConflictService) (calls : List Call) :
    Onward service ((machine runtime).run service calls) := by
  have hfrom (s : ConflictService) : Onward s s := fun conflictId record hrecord => ⟨record, hrecord, .refl record⟩
  refine (machine runtime).run_related (I := fun _ => True) (T := Onward) hfrom (fun _ _ _ => Onward.trans)
    (fun _ _ _ => trivial) ?_ trivial calls
  intro service call _
  exact changes_preserve (I := Onward service) (fun s t hchange hs => hs.trans (onward_of_change hchange))
    (step_changes service call) (hfrom service)

/-- A conflict stands under the id of its key and its claims, and prefers one of these where it is resolved. -/
structure Filed (runtime : ConflictRuntime) (conflictId : String) (conflict : KnowledgeConflict) : Prop where
  id : conflictId = conflictIdOf runtime conflict.conflictKey conflict.claimIds
  preferred : ∀ preferred, conflict.preferredClaimId = some preferred → preferred ∈ conflict.claimIds
  resolved : conflict.resolutionStatus = .autoResolved ∨ conflict.resolutionStatus = .manualResolved →
    conflict.preferredClaimId.isSome = true

def AllFiled (runtime : ConflictRuntime) (service : ConflictService) : Prop :=
  ∀ conflictId record, service.conflicts.lookup conflictId = some record → Filed runtime conflictId record

theorem autoResolve_filed {group : List ConflictClaim} {verified : Option (List String)}
    (h : autoResolve runtime group verified = .ok conflict) : Filed runtime conflict.conflictId conflict := by
  rw [autoResolve] at h
  split at h
  · cases h
  · obtain ⟨conflictKey, -, h⟩ := bind_eq_ok.mp h
    have hmember {claim : ConflictClaim} (hclaim : claim ∈ group) :
        claim.claimId ∈ (newConflict runtime conflictKey group).claimIds :=
      mem_sortedBy.mpr (List.mem_map_of_mem hclaim)
    rw [resolveGroup] at h
    split at h
    · rename_i claim hclaim
      cases h
      have hin : claim ∈ verifiedInGroup group verified := hclaim ▸ List.mem_singleton_self claim
      refine ⟨rfl, fun preferred hpreferred => ?_, fun _ => rfl⟩
      obtain rfl : claim.claimId = preferred := Option.some.inj hpreferred
      exact hmember (List.mem_of_mem_filter hin)
    · rw [resolveByConfidence] at h
      split at h
      · rename_i top runnerUp htop hrunnerUp
        cases h
        rw [decidedByConfidence]
        split
        · refine ⟨rfl, fun preferred hpreferred => ?_, fun _ => rfl⟩
          obtain rfl : top.claimId = preferred := Option.some.inj hpreferred
          exact hmember (List.argmax_mem htop)
        · refine ⟨rfl, fun _ hpreferred => ?_, fun hstatus => ?_⟩
          · cases hpreferred
          · rcases hstatus with h | h <;> cases h
      · cases h

theorem allFiled_set {conflictId : String} (h : AllFiled runtime service)
    (hconflict : Filed runtime conflictId conflict) :
    AllFiled runtime (service.setConflict conflictId conflict) := by
  intro other record hrecord
  rw [lookup_setConflict] at hrecord
  split at hrecord
  · rename_i heq
    cases hrecord
    exact heq ▸ hconflict
  · exact h other record hrecord

theorem allFiled_change (h : Change runtime service next) (hfiled : AllFiled runtime service) :
    AllFiled runtime next := by
  cases h with
  | stored claims => exact hfiled
  | filed h hopen => exact allFiled_set hfiled (autoResolve_filed h)
  | @resolved conflictId conflict preferred evidence hlookup hstatus hmember =>
    refine allFiled_set hfiled ⟨(hfiled conflictId conflict hlookup).id, fun other hother => ?_, fun _ => rfl⟩
    obtain rfl : preferred = other := Option.some.inj hother
    exact hmember
  | @superseded conflictId conflict reason hlookup =>
    have hbefore := hfiled conflictId conflict hlookup
    refine allFiled_set hfiled ⟨hbefore.id, hbefore.preferred, fun hstatus => ?_⟩
    rcases hstatus with h | h <;> cases h

theorem allFiled_run (calls : List Call) : AllFiled runtime ((machine runtime).run empty calls) := by
  have hempty : AllFiled runtime empty := fun _ _ h => by cases h
  exact (machine runtime).run_invariant
    (fun service call h => changes_preserve (fun _ _ => allFiled_change) (step_changes service call) h) hempty calls

theorem conflictIdOf_perm {conflictKey : String} {claimIds others : List String} (h : claimIds.Perm others) :
    conflictIdOf runtime conflictKey claimIds = conflictIdOf runtime conflictKey others := by
  have hsorted : sortedBy id claimIds = sortedBy id others := sortedBy_eq_of_perm h fun _ _ _ _ heq => heq
  rw [conflictIdOf, conflictIdOf, hsorted]

/-- The conflicts of every run: each under its id, one for a key and its claims, none of them lost or taken back. -/
structure ConflictHistory (runtime : ConflictRuntime) : Prop where
  filed : ∀ calls, AllFiled runtime ((machine runtime).run empty calls)
  single : ∀ calls conflictId conflictId' conflict conflict',
    ((machine runtime).run empty calls).conflicts.lookup conflictId = some conflict →
    ((machine runtime).run empty calls).conflicts.lookup conflictId' = some conflict' →
    conflict.conflictKey = conflict'.conflictKey → conflict.claimIds.Perm conflict'.claimIds →
    conflictId = conflictId' ∧ conflict = conflict'
  onward : ∀ calls later, Onward ((machine runtime).run empty calls) ((machine runtime).run empty (calls ++ later))

end ConflictService
end StockContent.Knowledge
