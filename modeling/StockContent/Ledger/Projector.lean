import Mathlib.Data.List.Infix
import StockContent.Ledger.ClaimStateEvent

/-! The historical projector: the state of a claim that a query at some clocks is shown,
folded from the visible events of the claim's chain. -/
namespace StockContent.Ledger
open Storage Verification

/-- The truth value of a decoded document value. -/
def truthy : Json → Bool
  | .null | .bool false | .arr [] | .obj [] => false
  | .int n => n ≠ 0
  | .float q => q ≠ 0
  | .str s => s ≠ ""
  | _ => true

/-- `isoformat().replace("+00:00", "Z")` of a UTC value. -/
def zulu (t : Time) : String := String.ofList ((isoformat t).toList.takeWhile (· ≠ '+')) ++ "Z"

/-- The upper case of a character, as far as the letters of LIFECYCLE can come out of it. -/
def upperLetters (c : Char) : List Char :=
  if c = 'ı' then ['I'] else if c = 'ﬁ' then ['F', 'I'] else if c = 'ﬂ' then ['F', 'L']
  else if c = 'ﬀ' then ['F', 'F'] else if c = 'ﬃ' then ['F', 'F', 'I'] else if c = 'ﬄ' then ['F', 'F', 'L']
  else [c.toUpper]

/-- `upper()` of a text, as far as words in ASCII can come out of it. -/
def upper (s : String) : List Char := s.toList.flatMap fun c => if c = 'ſ' then ['S'] else upperLetters c

/-- `"LIFECYCLE" in event_type.upper()`. -/
def lifecycleType (eventType : String) : Bool :=
  "LIFECYCLE".toList <:+: eventType.toList.flatMap upperLetters

/-- The texts a projection shows of digests, and of values that are not strings. -/
structure ProjectionTexts (D : Type) where
  digest : D → String
  value : Json → String

def ProjectionTexts.str {D : Type} (texts : ProjectionTexts D) : Json → String
  | .str s => s
  | v => texts.value v

structure HistoricalClaimProjector (D : Type) where
  events : List (ClaimStateEvent D) := []
  eventLoader : Option (String → Except (LedgerError D) (List (ClaimStateEvent D))) := none
  membership : Option (String → String → Bool) := none
  historyIncomplete : Option (String → Bool) := none

abbrev Fields := List (String × Json)

def putAll (state fields : Fields) : Fields := fields.foldl (fun state field => Json.put state field.1 field.2) state

section Fold
variable {D : Type} (texts : ProjectionTexts D)

def merge (state : Fields) (event : ClaimStateEvent D) : Fields :=
  let state := putAll state event.payload
  let state := Json.put state "event_type" (.str event.eventType)
  let state := Json.put state "event_id" (.str (texts.digest event.eventId))
  Json.put state "event_hash" (.str (texts.digest event.eventHash))

/-- The first of two payload keys with a value that counts. -/
def firstOf (payload : Fields) (key key' : String) : Option Json :=
  ((Json.lookup payload key).filter truthy).or ((Json.lookup payload key').filter truthy)

def lifecycleEvent (candidates : List (ClaimStateEvent D)) : Option (ClaimStateEvent D) :=
  (candidates.filter (lifecycleType ·.eventType)).getLast?

/-- The last lifecycle event as the state shows it. -/
def lifecycleAsOf (event : ClaimStateEvent D) : Option (String × Fields) := do
  let status ← firstOf event.payload "status" "to_status"
  let artifactId ← firstOf event.payload "artifact_id" "lifecycle_artifact_id"
  let knownFrom ← event.knownFrom
  return (texts.str status, [("status", .str (texts.str status)), ("known_from", .str (zulu knownFrom.utc)),
    ("artifact_id", .str (texts.str artifactId))])

def sealed (state : Fields) (legacyHistoryIncomplete : Bool) : Fields :=
  Json.put (Json.put state "payload" (.obj state)) "legacy_history_incomplete" (.bool legacyHistoryIncomplete)

def initialState (claimId : String) (contentSnapshotId : Option String) : Fields :=
  [("claim_id", .str claimId), ("content_snapshot_id", (contentSnapshotId.map Json.str).getD .null)]

/-- Verification and lifecycle events are folded into one state, in append order. -/
def folded (claimId : String) (contentSnapshotId : Option String) (candidates : List (ClaimStateEvent D)) : Fields :=
  candidates.foldl (merge texts) (initialState claimId contentSnapshotId)

def projectVisible (claimId : String) (contentSnapshotId : Option String) (candidates : List (ClaimStateEvent D)) :
    Option Fields :=
  if candidates.isEmpty then none
  else
    let state := folded texts claimId contentSnapshotId candidates
    match lifecycleEvent candidates with
    | none => some (sealed state false)
    | some event => match lifecycleAsOf texts event with
      | none => some (sealed state true)
      | some (status, asOf) =>
        some (sealed (Json.put (Json.put state "lifecycle_as_of" (.obj asOf)) "status" (.str status))
          (candidates.any (·.legacyHistoryIncomplete)))

theorem lookup_putAll (state fields : Fields) (key : String) :
    Json.lookup (putAll state fields) key = (Json.lookup fields.reverse key).or (Json.lookup state key) := by
  induction fields generalizing state with
  | nil => rfl
  | cons field fields ih =>
    change Json.lookup (putAll (Json.put state field.1 field.2) fields) key = _
    rw [ih, List.reverse_cons, Json.lookup_append, Json.lookup_put, Json.lookup_cons]
    cases Json.lookup fields.reverse key with
    | some v => rfl
    | none => by_cases hk : field.1 = key <;> simp [hk]

/-- The keys that every event sets after its payload. -/
def eventKeys : List String := ["event_type", "event_id", "event_hash"]

/-- The last event whose payload has a key decides about it. -/
theorem lookup_merge_fold (events : List (ClaimStateEvent D)) (state : Fields) {key : String} (hk : key ∉ eventKeys) :
    Json.lookup (events.foldl (merge texts) state) key =
      (events.reverse.findSome? fun event => Json.lookup event.payload.reverse key).or (Json.lookup state key) := by
  simp only [eventKeys, List.mem_cons, List.not_mem_nil, or_false, not_or] at hk
  induction events generalizing state with
  | nil => rfl
  | cons event events ih =>
    rw [List.foldl_cons, ih, List.reverse_cons, List.findSome?_append]
    simp only [merge, Json.lookup_put, if_neg (Ne.symm hk.1), if_neg (Ne.symm hk.2.1), if_neg (Ne.symm hk.2.2),
      lookup_putAll, List.findSome?_singleton, Option.or_assoc]

/-- Lifecycle and sealing leave the other keys of a projection alone. -/
theorem lookup_projectVisible {claimId : String} {contentSnapshotId : Option String}
    {candidates : List (ClaimStateEvent D)} {state : Fields} {key : String}
    (hk : key ∉ ["payload", "legacy_history_incomplete", "lifecycle_as_of", "status"])
    (h : projectVisible texts claimId contentSnapshotId candidates = some state) :
    Json.lookup state key = Json.lookup (folded texts claimId contentSnapshotId candidates) key := by
  simp only [List.mem_cons, List.not_mem_nil, or_false, not_or] at hk
  obtain ⟨h₁, h₂, h₃, h₄⟩ := hk
  unfold projectVisible at h
  split at h
  · cases h
  · cases hl : lifecycleEvent candidates with
    | none =>
      simp only [hl, Option.some.injEq] at h
      rw [← h]
      simp only [sealed, Json.lookup_put, if_neg (Ne.symm h₁), if_neg (Ne.symm h₂)]
    | some event =>
      cases ha : lifecycleAsOf texts event with
      | none =>
        simp only [hl, ha, Option.some.injEq] at h
        rw [← h]
        simp only [sealed, Json.lookup_put, if_neg (Ne.symm h₁), if_neg (Ne.symm h₂)]
      | some asOf =>
        simp only [hl, ha, Option.some.injEq] at h
        rw [← h]
        simp only [sealed, Json.lookup_put, if_neg (Ne.symm h₁), if_neg (Ne.symm h₂), if_neg (Ne.symm h₃),
          if_neg (Ne.symm h₄)]

end Fold

section Project
variable {D : Type}

def requireUtcClock (field : String) (value : DateTime) : Except (LedgerError D) Time :=
  match value.offset with
  | none => .error (.valueError (field ++ " must be a timezone-aware UTC datetime"))
  | some offset => if offset = 0 then .ok value.utc else .error (.valueError (field ++ " must use UTC timezone"))

def requireUtcClocks (clocks : QueryClocks DateTime) : Except (LedgerError D) (QueryClocks Time) := do
  let businessAsOf ← requireUtcClock "business_as_of" clocks.businessAsOf
  let knowledgeAsOf ← requireUtcClock "knowledge_as_of" clocks.knowledgeAsOf
  let availabilityAsOf ← requireUtcClock "availability_as_of" clocks.availabilityAsOf
  return { businessAsOf, knowledgeAsOf, availabilityAsOf }

theorem requireUtcClock_eq_ok {field : String} {value : DateTime} {t : Time}
    (h : (requireUtcClock field value : Except (LedgerError D) Time) = .ok t) : value.offset = some 0 ∧ value.utc = t := by
  unfold requireUtcClock at h
  split at h
  · cases h
  · rename_i offset hoffset
    split at h
    · rename_i hzero
      exact ⟨hzero ▸ hoffset, Except.ok.inj h⟩
    · cases h

/-- Clocks that are let in are UTC, and read as instants. -/
theorem requireUtcClocks_eq_ok {clocks : QueryClocks DateTime} {instants : QueryClocks Time}
    (h : (requireUtcClocks clocks : Except (LedgerError D) _) = .ok instants) :
    instants = ⟨clocks.businessAsOf.utc, clocks.knowledgeAsOf.utc, clocks.availabilityAsOf.utc⟩ ∧
      clocks.businessAsOf.offset = some 0 ∧ clocks.knowledgeAsOf.offset = some 0 ∧
        clocks.availabilityAsOf.offset = some 0 := by
  obtain ⟨business, hbusiness, h⟩ := bind_eq_ok.mp h
  obtain ⟨knowledge, hknowledge, h⟩ := bind_eq_ok.mp h
  obtain ⟨availability, havailability, h⟩ := bind_eq_ok.mp h
  cases h
  obtain ⟨hb, rfl⟩ := requireUtcClock_eq_ok hbusiness
  obtain ⟨hk, rfl⟩ := requireUtcClock_eq_ok hknowledge
  obtain ⟨ha, rfl⟩ := requireUtcClock_eq_ok havailability
  exact ⟨rfl, hb, hk, ha⟩

namespace HistoricalClaimProjector

/-- The events handed to the projector for a claim. -/
def supply (projector : HistoricalClaimProjector D) (claimId : String) :
    Except (LedgerError D) (List (ClaimStateEvent D)) :=
  match projector.eventLoader with
  | some load => load claimId
  | none => .ok (projector.events.filter (·.claimId = claimId))

variable [DecidableEq D] (digests : EventDigests D) (texts : ProjectionTexts D)

def eventsFor (projector : HistoricalClaimProjector D) (claimId : String) :
    Except (LedgerError D) (List (ClaimStateEvent D)) := do
  let events ← projector.supply claimId
  validateEventChain digests events

def isHistoryIncomplete (projector : HistoricalClaimProjector D) (claimId : String) :
    Except (LedgerError D) Bool :=
  if projector.historyIncomplete.any (· claimId) then .ok true else do
    let events ← projector.eventsFor digests claimId
    return events.any (·.legacyHistoryIncomplete)

def project (projector : HistoricalClaimProjector D) (claimId : String) (clocks : QueryClocks DateTime)
    (contentSnapshotId : Option String) : Except (LedgerError D) (Option Fields) := do
  let clocks ← requireUtcClocks clocks
  if (contentSnapshotId.filter (· ≠ "")).any fun id => !projector.membership.any (· id claimId) then
    return none
  else if ← projector.isHistoryIncomplete digests claimId then
    return some (initialState claimId contentSnapshotId ++ [("legacy_history_incomplete", .bool true)])
  else
    let events ← projector.eventsFor digests claimId
    return projectVisible texts claimId contentSnapshotId (events.filter (·.visibleAt clocks))

theorem eventsFor_eq_ok {projector : HistoricalClaimProjector D} {claimId : String} {ordered : List (ClaimStateEvent D)} :
    projector.eventsFor digests claimId = .ok ordered ↔
      ∃ events, projector.supply claimId = .ok events ∧ events.Perm ordered ∧ Chained digests ordered := by
  unfold eventsFor
  rw [bind_eq_ok]
  simp only [validateEventChain_eq_ok]

/-- A query that is not refused: UTC clocks, and a snapshot that contains the claim. -/
structure Admits (projector : HistoricalClaimProjector D) (claimId : String) (clocks : QueryClocks DateTime)
    (contentSnapshotId : Option String) (instants : QueryClocks Time) : Prop where
  clocks : requireUtcClocks clocks = (.ok instants : Except (LedgerError D) _)
  member : ((contentSnapshotId.filter (· ≠ "")).any fun id => !projector.membership.any (· id claimId)) = false
  complete : projector.historyIncomplete.any (· claimId) = false

/-- Without a gap in the history a query is shown the fold of what it can see. -/
theorem project_admitted {projector : HistoricalClaimProjector D} {claimId : String} {clocks : QueryClocks DateTime}
    {contentSnapshotId : Option String} {instants : QueryClocks Time} {events : List (ClaimStateEvent D)}
    (h : Admits projector claimId clocks contentSnapshotId instants)
    (hevents : projector.eventsFor digests claimId = .ok events)
    (hlegacy : ∀ event ∈ events, event.legacyHistoryIncomplete = false) :
    projector.project digests texts claimId clocks contentSnapshotId =
      .ok (projectVisible texts claimId contentSnapshotId (events.filter (·.visibleAt instants))) := by
  have hany : events.any (·.legacyHistoryIncomplete) = false := by simpa using hlegacy
  have hincomplete : projector.isHistoryIncomplete digests claimId = .ok false := by
    simp only [isHistoryIncomplete, h.complete, hevents]
    exact congrArg Except.ok hany
  simp only [project, h.clocks, hincomplete, hevents]
  change (if _ then _ else _) = _
  rw [if_neg (by rw [h.member]; exact Bool.false_ne_true)]
  rfl

/-- With a gap in the history a query is shown the gap. -/
theorem project_gap {projector : HistoricalClaimProjector D} {claimId : String} {clocks : QueryClocks DateTime}
    {contentSnapshotId : Option String} {instants : QueryClocks Time} {events : List (ClaimStateEvent D)}
    (h : Admits projector claimId clocks contentSnapshotId instants)
    (hevents : projector.eventsFor digests claimId = .ok events)
    (hlegacy : events.any (·.legacyHistoryIncomplete) = true) :
    projector.project digests texts claimId clocks contentSnapshotId =
      .ok (some (initialState claimId contentSnapshotId ++ [("legacy_history_incomplete", .bool true)])) := by
  have hincomplete : projector.isHistoryIncomplete digests claimId = .ok true := by
    simp only [isHistoryIncomplete, h.complete, hevents]
    exact congrArg Except.ok hlegacy
  simp only [project, h.clocks, hincomplete]
  change (if _ then _ else _) = _
  rw [if_neg (by rw [h.member]; exact Bool.false_ne_true)]
  rfl

/-- The same projector with further events to look at. -/
structure SuppliesMore (projector projector' : HistoricalClaimProjector D) (claimId : String)
    (events more : List (ClaimStateEvent D)) : Prop where
  membership : projector'.membership = projector.membership
  historyIncomplete : projector'.historyIncomplete = projector.historyIncomplete
  supply : projector.supply claimId = .ok events
  supply' : ∃ events', projector'.supply claimId = .ok events' ∧ events'.Perm (events ++ more)

omit [DecidableEq D] in
/-- A projector over a fixed list of events sees the claim's part of what is added to it. -/
theorem SuppliesMore.of_events {projector : HistoricalClaimProjector D} (h : projector.eventLoader = none)
    {events more : List (ClaimStateEvent D)} (hp : events.Perm (projector.events ++ more)) (claimId : String) :
    SuppliesMore projector { projector with events } claimId (projector.events.filter (·.claimId = claimId))
      (more.filter (·.claimId = claimId)) := by
  refine ⟨rfl, rfl, by simp [HistoricalClaimProjector.supply, h], events.filter (·.claimId = claimId),
    by simp [HistoricalClaimProjector.supply, h], ?_⟩
  rw [← List.filter_append]
  exact hp.filter _

variable {digests texts}

/-- A valid chain and an extension of it are read as the chain and its extension. -/
theorem SuppliesMore.eventsFor {projector projector' : HistoricalClaimProjector D} {claimId : String}
    {events more ordered ordered' : List (ClaimStateEvent D)}
    (h : SuppliesMore projector projector' claimId events more)
    (hc : projector.eventsFor digests claimId = .ok ordered)
    (hc' : projector'.eventsFor digests claimId = .ok ordered') :
    ∃ rest, ordered' = ordered ++ rest ∧ more.Perm rest := by
  obtain ⟨events₁, hsupply, hp, hchain⟩ := (eventsFor_eq_ok digests).mp hc
  obtain ⟨events₂, hsupply', hp', hchain'⟩ := (eventsFor_eq_ok digests).mp hc'
  rw [h.supply] at hsupply
  cases hsupply
  obtain ⟨events₃, hsupply₃, hp₃⟩ := h.supply'
  rw [hsupply₃] at hsupply'
  cases hsupply'
  exact hchain.prefix hchain' (((hp.symm.append_right more).trans hp₃.symm).trans hp')

/-- Events that the clocks cannot see do not change what a query is shown, and the order in
which the events are supplied does not either. -/
theorem project_never_looks_ahead {projector projector' : HistoricalClaimProjector D} {claimId : String}
    {events more ordered ordered' : List (ClaimStateEvent D)} {clocks : QueryClocks DateTime}
    (h : SuppliesMore projector projector' claimId events more)
    (hc : projector.eventsFor digests claimId = .ok ordered)
    (hc' : projector'.eventsFor digests claimId = .ok ordered')
    (hmore : ∀ event ∈ more, event.legacyHistoryIncomplete = false ∧
      ∀ instants, (requireUtcClocks clocks : Except (LedgerError D) _) = .ok instants → event.visibleAt instants = false)
    (contentSnapshotId : Option String) :
    projector'.project digests texts claimId clocks contentSnapshotId =
      projector.project digests texts claimId clocks contentSnapshotId := by
  obtain ⟨rest, rfl, hrest⟩ := h.eventsFor hc hc'
  have hlegacy : (ordered ++ rest).any (·.legacyHistoryIncomplete) = ordered.any (·.legacyHistoryIncomplete) := by
    have hnone : rest.any (·.legacyHistoryIncomplete) = false := by
      simpa using fun event he => (hmore event (hrest.mem_iff.mpr he)).1
    rw [List.any_append, hnone, Bool.or_false]
  have hincomplete : projector'.isHistoryIncomplete digests claimId =
      projector.isHistoryIncomplete digests claimId := by
    simp only [isHistoryIncomplete, h.historyIncomplete, hc, hc']
    split
    · rfl
    · exact congrArg Except.ok hlegacy
  unfold project
  cases hu : (requireUtcClocks clocks : Except (LedgerError D) _) with
  | error e => rfl
  | ok instants =>
    have hvisible : (ordered ++ rest).filter (·.visibleAt instants) = ordered.filter (·.visibleAt instants) := by
      have hnone : rest.filter (·.visibleAt instants) = [] := by
        refine List.filter_eq_nil_iff.mpr fun event he => ?_
        simp [(hmore event (hrest.mem_iff.mpr he)).2 instants hu]
      rw [List.filter_append, hnone, List.append_nil]
    simp only [h.membership, hincomplete, hc, hc']
    change (if _ then _ else _ >>= fun incomplete => if incomplete = true then _ else
      pure (projectVisible texts claimId contentSnapshotId ((ordered ++ rest).filter (·.visibleAt instants)))) = _
    rw [hvisible]
    rfl

end HistoricalClaimProjector
end Project

section Plain

def plainTexts : ProjectionTexts Json := ⟨fun _ => "digest", fun _ => "value"⟩

/-- A verification result that becomes known an hour after the epoch. -/
def firstResult : ClaimStateEvent Json := plainDigests.sign
  { claimId := "claim-1"
    eventType := "VERIFICATION_INITIAL"
    payload := [("verification_status", .str "VERIFIED")]
    knownFrom := some (.ofUtc (seconds 3600))
    sourceAvailableFrom := some (.ofUtc (seconds 3600)) }

/-- What is known a day later does not show in a query of the second hour. -/
def laterResult : ClaimStateEvent Json := plainDigests.sign
  { claimId := "claim-1"
    eventType := "VERIFICATION_REFRESH"
    payload := [("status", .str "CONTRADICTED")]
    knownFrom := some (.ofUtc (seconds 86400))
    sourceAvailableFrom := some (.ofUtc (seconds 86400))
    previousEventHash := some firstResult.eventHash }

def firstProjector : HistoricalClaimProjector Json := { events := [firstResult] }

theorem project_ignores_later_result :
    let clocks : QueryClocks DateTime := ⟨.ofUtc (seconds 7200), .ofUtc (seconds 7200), .ofUtc (seconds 7200)⟩
    HistoricalClaimProjector.project plainDigests plainTexts { firstProjector with events := [laterResult, firstResult] }
        "claim-1" clocks none =
      HistoricalClaimProjector.project plainDigests plainTexts firstProjector "claim-1" clocks none := by
  intro clocks
  have hp : [laterResult, firstResult].Perm (firstProjector.events ++ [laterResult]) := .swap _ _ []
  refine HistoricalClaimProjector.project_never_looks_ahead (.of_events rfl hp "claim-1") rfl rfl ?_ none
  intro event he
  rw [List.mem_singleton.mp (List.mem_filter.mp he).1]
  refine ⟨rfl, fun instants hu => ?_⟩
  cases hu
  decide

end Plain
end StockContent.Ledger
