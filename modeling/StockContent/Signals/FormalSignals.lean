import Mathlib.Data.List.ReduceOption
import Mathlib.Tactic.NormNum
import StockContent.Identity.SnapshotIdentity
import StockContent.Publication.PublicationRepository
import StockContent.Signals.FormalContract

/-! The formal read of factor signals: which claims of a snapshot a query is answered with. -/
namespace StockContent.Signals
open Storage Verification Ledger

/-- What the application has at hand for a formal read. The ids of a snapshot's claims come through the projector. -/
structure FormalServices (D : Type) where
  snapshots : String → Except (FormalReadError D) (Option (Identity.ContentSnapshot Json))
  evidence : Identity.ContentSnapshot Json → Except String Unit
  publications : Option Publication.RunTable
  projector : Option (HistoricalClaimProjector D)
  snapshotClaimIds : Option (String → List String)

section Read
variable {D : Type} [DecidableEq D] (rt : FormalRuntime D)

/-- `symbol.split(".", 1)[0]`. -/
def bareCode (symbol : String) : List Char := symbol.toList.takeWhile (· ≠ '.')

def symbolOf (projection : Fields) : String :=
  ((counted projection "symbol").or (counted projection "subject_id")).elim "" rt.texts.str

def isWanted (query : FormalContentSignalQuery) (projection : Fields) : Bool :=
  let wantedSymbols := query.symbols.map bareCode
  wantedSymbols.isEmpty || wantedSymbols.contains (bareCode (symbolOf rt projection))

/-- The window is compared with as text; what does not say since when it is available is let through. -/
def inTextWindow (query : FormalContentSignalQuery) (projection : Fields) : Bool :=
  (counted projection "available_from").all fun available =>
    isoformat query.windowStart ≤ rt.texts.str available ∧ rt.texts.str available ≤ isoformat query.windowEnd

def signalOfProjection (query : FormalContentSignalQuery) (claimId : String) (projection : Fields) :
    Except (FormalReadError D) (Option Fields) := do
  requireOr "formal projection claim identity does not match snapshot membership"
    (textOf rt projection "claim_id" "" = claimId)
  require (.historicalLineageIncomplete ("claim " ++ claimId ++ " has incomplete historical lineage"))
    (counted projection "legacy_history_incomplete").isNone
  if !isWanted rt query projection then return none
  else if !inTextWindow rt query projection then return none
  else do
    let support ← intOf rt (counted projection "support_count")
    if support < query.minSupport then return none
    else match Json.lookup projection "lifecycle_as_of" with
      | some (.obj lifecycle) =>
        (buildSignal rt (Json.put projection "lifecycle_as_of" (.obj lifecycle)) query).map some
      | _ => .error (.historicalLineageIncomplete ("claim " ++ claimId ++ " has no lifecycle_as_of lineage"))

def queryClocks (query : FormalContentSignalQuery) : QueryClocks DateTime :=
  ⟨.ofUtc query.businessAsOf, .ofUtc query.knowledgeAsOf, .ofUtc query.availabilityAsOf⟩

def projectionOf (projector : HistoricalClaimProjector D) (query : FormalContentSignalQuery) (claimId : String) :
    Except (LedgerError D) (Option Fields) :=
  projector.project rt.digests rt.texts claimId (queryClocks query) (some query.contentSnapshotId)

def signalFor (projector : HistoricalClaimProjector D) (query : FormalContentSignalQuery) (claimId : String) :
    Except (FormalReadError D) (Option Fields) := do
  let projection ← (projectionOf rt projector query claimId).mapError .ledger
  projection.elim (.ok none) (signalOfProjection rt query claimId)

variable (services : FormalServices D)

def claimsForSnapshot (contentSnapshotId : String) : List String :=
  sortedSet ((services.snapshotClaimIds.elim [] (· contentSnapshotId)).filter (· ≠ ""))

def formalFactorSignals (query : FormalContentSignalQuery) : Except (FormalReadError D) (List Fields) := do
  let found ← services.snapshots query.contentSnapshotId
  let snapshot ← found.elim (.error (.valueError "unknown content_snapshot_id")) .ok
  (Identity.validateFormalSnapshot rt.store services.evidence snapshot
    ⟨query.contentSnapshotId, query.availabilityAsOf⟩).mapError .snapshot
  requireOr ("publication-not-ready: content snapshot " ++ query.contentSnapshotId ++ " is not formally published")
    (services.publications.any (Publication.isReady query.contentSnapshotId))
  let projector ← services.projector.elim
    (.error (.historicalLineageIncomplete "legacy/publication-not-ready: historical projector unavailable")) .ok
  let claimIds := claimsForSnapshot services query.contentSnapshotId
  require (.historicalLineageIncomplete ("legacy/publication-not-ready: snapshot " ++ query.contentSnapshotId ++
    " has no immutable claim membership")) (!claimIds.isEmpty)
  let signals ← claimIds.mapM (signalFor rt projector query)
  return signals.reduceOption

end Read

section Answers
variable {D : Type} {rt : FormalRuntime D} {services : FormalServices D} {query : FormalContentSignalQuery}
  {answer : List Fields} {claimId : String} {projection : Fields}

/-- A claim's part of an answer: it is one of the claim, and there exactly when symbol, window and support let it. -/
theorem signalOfProjection_eq_ok {signal : Option Fields}
    (h : signalOfProjection rt query claimId projection = .ok signal) :
    (∀ fields ∈ signal, Json.lookup fields "claim_id" = some (.str claimId)) ∧
      (signal.isSome ↔ isWanted rt query projection = true ∧ inTextWindow rt query projection = true ∧
        ∃ support, intOf rt (counted projection "support_count") = .ok support ∧ query.minSupport ≤ support) := by
  obtain ⟨hidentity, h⟩ := then_eq_ok.mp h
  obtain ⟨-, h⟩ := then_eq_ok.mp h
  cases hwanted : isWanted rt query projection with
  | false =>
    rw [hwanted] at h
    cases h
    simp
  | true =>
    cases hwindow : inTextWindow rt query projection with
    | false =>
      rw [hwanted, hwindow] at h
      cases h
      simp
    | true =>
      rw [hwanted, hwindow] at h
      obtain ⟨support, hsupport, h⟩ := bind_eq_ok.mp h
      by_cases hfew : support < query.minSupport
      · rw [if_pos hfew] at h
        cases h
        simp [hsupport, hfew]
      · rw [if_neg hfew] at h
        cases hlifecycle : Json.lookup projection "lifecycle_as_of" with
        | none => simp [hlifecycle] at h
        | some lifecycle =>
          cases lifecycle with
          | obj lifecycle =>
            rw [hlifecycle] at h
            obtain ⟨built, hbuilt, hsignal⟩ := bind_eq_ok.mp h
            cases hsignal
            obtain ⟨built', hclaim, hlookup⟩ := buildSignal_claimId hbuilt
            rw [Json.lookup_put, if_neg (by decide)] at hlookup
            have hid : built' = claimId :=
              (textOf_of_lookup hlookup).symm.trans (of_decide_eq_true (require_eq_ok.mp hidentity))
            refine ⟨?_, iff_of_true rfl ⟨rfl, rfl, support, hsupport, not_lt.mp hfew⟩⟩
            rintro fields ⟨⟩
            rw [hclaim, hid]
          | _ => simp [hlifecycle] at h

theorem isWanted_iff : isWanted rt query projection = true ↔
    ∃ symbol ∈ query.symbols, bareCode (symbolOf rt projection) = bareCode symbol := by
  have hne : (query.symbols.map bareCode).isEmpty = false := by
    rw [List.isEmpty_eq_false_iff, Ne, List.map_eq_nil_iff]
    exact query.symbols_ne
  rw [isWanted, hne, Bool.false_or, List.contains_iff_mem, List.mem_map]
  simp only [eq_comm]

variable [DecidableEq D]

theorem formalFactorSignals_eq_ok (h : formalFactorSignals rt services query = .ok answer) :
    ∃ projector found, services.projector = some projector ∧ answer = found.reduceOption ∧
      (claimsForSnapshot services query.contentSnapshotId).mapM (signalFor rt projector query) = .ok found := by
  obtain ⟨_, -, h⟩ := bind_eq_ok.mp h
  obtain ⟨_, -, h⟩ := bind_eq_ok.mp h
  obtain ⟨-, h⟩ := then_eq_ok.mp h
  obtain ⟨-, h⟩ := then_eq_ok.mp h
  obtain ⟨projector, hprojector, h⟩ := bind_eq_ok.mp h
  obtain ⟨-, h⟩ := then_eq_ok.mp h
  obtain ⟨found, hfound, h⟩ := bind_eq_ok.mp h
  cases h
  exact ⟨projector, found, elim_eq_ok.mp hprojector, rfl, hfound⟩

theorem signalFor_eq_ok {projector : HistoricalClaimProjector D} {signal : Option Fields}
    (h : signalFor rt projector query claimId = .ok signal) :
    ∃ projection, projectionOf rt projector query claimId = .ok projection ∧
      projection.elim (.ok none) (signalOfProjection rt query claimId) = .ok signal := by
  obtain ⟨projection, hprojection, h⟩ := bind_eq_ok.mp h
  exact ⟨projection, mapError_eq_ok.mp hprojection, h⟩

/-- A signal of an answer comes from a claim of the snapshot, whose id it has, and from the claim's projection. -/
theorem answer_signal (h : formalFactorSignals rt services query = .ok answer) {fields : Fields}
    (hfields : fields ∈ answer) :
    ∃ projector claimId projection, services.projector = some projector ∧
      claimId ∈ claimsForSnapshot services query.contentSnapshotId ∧
      projectionOf rt projector query claimId = .ok (some projection) ∧
      signalOfProjection rt query claimId projection = .ok (some fields) := by
  obtain ⟨projector, found, hprojector, rfl, hfound⟩ := formalFactorSignals_eq_ok h
  obtain ⟨claimId, hclaim, hsignal⟩ := mem_of_mapM hfound (List.reduceOption_mem_iff.mp hfields)
  obtain ⟨projection, hprojection, hsignal⟩ := signalFor_eq_ok hsignal
  cases projection with
  | none => cases hsignal
  | some projection => exact ⟨projector, claimId, projection, hprojector, hclaim, hprojection, hsignal⟩

/-- An answer has a signal of a claim exactly when symbol, window and support let the claim's projection through. -/
theorem included_iff (h : formalFactorSignals rt services query = .ok answer) {projector : HistoricalClaimProjector D}
    (hprojector : services.projector = some projector)
    (hclaim : claimId ∈ claimsForSnapshot services query.contentSnapshotId)
    (hprojection : projectionOf rt projector query claimId = .ok (some projection)) :
    (∃ fields ∈ answer, Json.lookup fields "claim_id" = some (.str claimId)) ↔
      isWanted rt query projection = true ∧ inTextWindow rt query projection = true ∧
        ∃ support, intOf rt (counted projection "support_count") = .ok support ∧ query.minSupport ≤ support := by
  obtain ⟨projector', found, hprojector', rfl, hfound⟩ := formalFactorSignals_eq_ok h
  obtain rfl : projector = projector' := Option.some.inj (hprojector.symm.trans hprojector')
  obtain ⟨signal, hmem, hsignal⟩ := exists_of_mapM hfound hclaim
  obtain ⟨projection', hprojection'', hsignal⟩ := signalFor_eq_ok hsignal
  obtain rfl : some projection = projection' := Except.ok.inj (hprojection.symm.trans hprojection'')
  obtain ⟨hid, hiff⟩ := signalOfProjection_eq_ok hsignal
  rw [← hiff]
  constructor
  · rintro ⟨fields, hfields, hlookup⟩
    obtain ⟨projector', claimId', other, hprojector', -, hother, hfields'⟩ := answer_signal h hfields
    obtain rfl : projector = projector' := Option.some.inj (hprojector.symm.trans hprojector')
    -- The signal's id is that of the claim it comes from, so it comes from this one.
    have hsame := (signalOfProjection_eq_ok hfields').1 fields rfl
    rw [hlookup] at hsame
    obtain rfl : claimId = claimId' := Json.str.inj (Option.some.inj hsame)
    obtain rfl : projection = other := Option.some.inj (Except.ok.inj (hprojection.symm.trans hother))
    rw [← Except.ok.inj (hfields'.symm.trans hsignal)]
    rfl
  · intro hsome
    obtain ⟨fields, rfl⟩ := Option.isSome_iff_exists.mp hsome
    exact ⟨fields, List.reduceOption_mem_iff.mpr hmem, hid fields rfl⟩

/-- Symbols count up to their first dot. A signal of an answer is of a claim whose symbol agrees with a requested
one so far; and of the claims that window and support let through, the answer has those that do, whatever follows
the dot on either side. -/
theorem answer_by_bare_codes (rt : FormalRuntime D) (services : FormalServices D) (query : FormalContentSignalQuery)
    {answer : List Fields} (h : formalFactorSignals rt services query = .ok answer) :
    (∀ fields ∈ answer, ∃ projector claimId projection, services.projector = some projector ∧
      Json.lookup fields "claim_id" = some (.str claimId) ∧
      projectionOf rt projector query claimId = .ok (some projection) ∧
      ∃ symbol ∈ query.symbols, bareCode (symbolOf rt projection) = bareCode symbol) ∧
    ∀ projector claimId projection support, services.projector = some projector →
      claimId ∈ claimsForSnapshot services query.contentSnapshotId →
      projectionOf rt projector query claimId = .ok (some projection) → inTextWindow rt query projection = true →
      intOf rt (counted projection "support_count") = .ok support → query.minSupport ≤ support →
      ((∃ fields ∈ answer, Json.lookup fields "claim_id" = some (.str claimId)) ↔
        ∃ symbol ∈ query.symbols, bareCode (symbolOf rt projection) = bareCode symbol) := by
  constructor
  · intro fields hfields
    obtain ⟨projector, claimId, projection, hprojector, -, hprojection, hsignal⟩ := answer_signal h hfields
    obtain ⟨hid, hiff⟩ := signalOfProjection_eq_ok hsignal
    exact ⟨projector, claimId, projection, hprojector, hid fields rfl, hprojection, isWanted_iff.mp (hiff.mp rfl).1⟩
  · intro projector claimId projection support hprojector hclaim hprojection hwindow hsupport hmin
    rw [included_iff h hprojector hclaim hprojection, ← isWanted_iff]
    exact ⟨fun h => h.1, fun hwanted => ⟨hwanted, hwindow, support, hsupport, hmin⟩⟩

end Answers

section Plain

/-- Midnight of the fifth of January 2026, and of the sixth. -/
def fifth : Time := seconds 1767571200

def sixth : Time := seconds 1767657600

def plainRuntime : FormalRuntime Json where
  store := Identity.plainRuntime .null
  digests := plainDigests
  texts := plainTexts
  int _ := none
  dict _ := .error "cannot convert to a dictionary"
  fromisoformat text := ([fifth, sixth].find? (isoformat · = text)).map .ofUtc
  digest _ := "digest"
  contractChecksum := "checksum"

/-- The event that makes a claim active on the fifth. -/
def activation (symbol availableFrom : String) : ClaimStateEvent Json := plainDigests.sign
  { claimId := "claim-1"
    eventType := "LIFECYCLE"
    payload := [("symbol", .str symbol), ("available_from", .str availableFrom), ("support_count", .int 2),
      ("occurrence_id", .str "occurrence-1"), ("semantic_segment_id", .str "segment-1"),
      ("producer_commit", .str "sha"), ("status", .str "ACTIVE"), ("artifact_id", .str "lifecycle-1")]
    knownFrom := some (.ofUtc fifth)
    sourceAvailableFrom := some (.ofUtc fifth) }

def publishedRun : Publication.ContentPublicationRunRow where
  publicationRunId := "run-1"
  identity := ⟨"cs-other", "query", "signal-policy.v1"⟩
  state := .published
  manifestHash := some "hash"
  version := 1

def plainProjector (event : ClaimStateEvent Json) : HistoricalClaimProjector Json :=
  { events := [event], membership := some fun _ _ => true }

def plainServices (event : ClaimStateEvent Json) : FormalServices Json where
  snapshots _ := .ok (some
    { contentSnapshotId := "cs-other", sourceType := "bilibili", sourceRef := "BV1", sourceContentHash := "hash"
      sourceArtifactId := "source-1", artifactRootHash := "root", artifactIds := [("source", "source-1")]
      createdAt := 0 })
  evidence _ := .ok ()
  publications := Table.empty.insert publishedRun
  projector := some (plainProjector event)
  snapshotClaimIds := some fun _ => ["claim-1"]

/-- A query of the sixth for one symbol, up to some time. -/
def queryFor (symbol : String) (endAt : Option UtcMoment) : FormalContentSignalQuery where
  requestId := "request-1"
  symbols := [symbol]
  businessAsOf := ⟨sixth, by decide⟩
  knowledgeAsOf := ⟨sixth, by decide⟩
  availabilityAsOf := ⟨sixth, by decide⟩
  contentSnapshotId := "cs-other"
  minSupport := 1
  signalPolicyVersion := "signal-policy.v1"
  start := none
  endAt
  symbols_ne := List.cons_ne_nil _ _
  minSupport_pos := by decide
  ordered s hs := by cases hs

def claimsOf (answer : Except (FormalReadError Json) (List Fields)) : Option (List (Option Json)) :=
  answer.toOption.map fun answer => answer.map (Json.lookup · "claim_id")

theorem shanghai_query_returns : ∃ answer, formalFactorSignals plainRuntime
    (plainServices (activation "000001.SZ" "2026-01-05T00:00:00Z")) (queryFor "000001.SH" none) = .ok answer := by
  refine toBool_eq_true.mp ?_
  decide

theorem answer_has_the_code : ∃ answer, formalFactorSignals plainRuntime
      (plainServices (activation "000001.SZ" "2026-01-05T00:00:00Z")) (queryFor "000001.SH" none) = .ok answer ∧
    ∀ fields ∈ answer, ∃ projector claimId projection,
      (plainServices (activation "000001.SZ" "2026-01-05T00:00:00Z")).projector = some projector ∧
      Json.lookup fields "claim_id" = some (.str claimId) ∧
      projectionOf plainRuntime projector (queryFor "000001.SH" none) claimId = .ok (some projection) ∧
      ∃ symbol ∈ (queryFor "000001.SH" none).symbols,
        bareCode (symbolOf plainRuntime projection) = bareCode symbol := by
  obtain ⟨answer, h⟩ := shanghai_query_returns
  exact ⟨answer, h, (answer_by_bare_codes plainRuntime _ (queryFor "000001.SH" none) h).1⟩

/-- A query for the security in Shanghai is answered with the one in Shenzhen. -/
theorem other_exchange_is_answered :
    claimsOf (formalFactorSignals plainRuntime (plainServices (activation "000001.SZ" "2026-01-05T00:00:00Z"))
      (queryFor "000001.SH" none)) = some [some (.str "claim-1")] := by
  decide

end Plain

/-! The window of a formal read: a test on texts, and the instants it decides about. -/

section Instants
variable {r a : Rendering}

theorem startsLate_not_le (h : r.StartsLate a) : ¬ a.instant ≤ r.instant := by
  obtain ⟨hsecond, -, rest, hrest, hzeros⟩ := h
  rw [Rendering.instant_le_iff, hsecond, hrest, (fractionValue_append r.fraction rest).2]
  rintro (hlt | ⟨-, hz⟩)
  · exact lt_irrefl _ hlt
  · exact hzeros hz

theorem startsEarly_le (h : r.StartsEarly a) : a.instant ≤ r.instant := by
  obtain ⟨hsecond, -, rest, -, hrest, hzeros⟩ := h
  rw [Rendering.instant_le_iff, hrest]
  exact .inr ⟨hsecond, (fractionValue_append r.fraction rest).2.mpr hzeros⟩

theorem endsEarly_le (h : r.EndsEarly a) : r.instant ≤ a.instant := by
  obtain ⟨hsecond, ⟨-, rest, hrest⟩ | ⟨rest, -, hrest, hzeros⟩⟩ := h
  · rw [Rendering.instant_le_iff, ← hrest]
    exact .inr ⟨hsecond.symm, (fractionValue_append r.fraction rest).1⟩
  · rw [Rendering.instant_le_iff, hrest]
    exact .inr ⟨hsecond.symm, (fractionValue_append a.fraction rest).2.mpr hzeros⟩

end Instants

section Window
variable (query : FormalContentSignalQuery)

/-- The bounds as the window test has them. -/
def startText : Rendering := .ofTime query.windowStart query.windowStart.property

def endText : Rendering := .ofTime query.windowEnd query.windowEnd.property

/-- The closed window. -/
def InWindow (r : Rendering) : Prop :=
  (query.windowStart.val : Rat) / 1000000 ≤ r.instant ∧ r.instant ≤ (query.windowEnd.val : Rat) / 1000000

/-- Within one second of a bound, a rendering that is taken for later or for earlier than the bound, where nothing
else keeps it in or out. -/
def Misread (r : Rendering) : Prop :=
  r.StartsLate (startText query) ∧ ¬ r.EndsEarly (endText query) ∧ r.instant ≤ (endText query).instant ∨
    r.StartsEarly (startText query) ∧ r.instant ≤ (endText query).instant ∨
    r.EndsEarly (endText query) ∧ (startText query).instant ≤ r.instant

variable {query} {D : Type} {rt : FormalRuntime D} {projection : Fields}

theorem rendering_ne (r : Rendering) : r.text ≠ "" := by
  intro h
  have hlength := congrArg (·.toList.length) h
  simp [Rendering.text] at hlength

theorem inTextWindow_iff {r : Rendering} (h : Json.lookup projection "available_from" = some (.str r.text)) :
    inTextWindow rt query projection = true ↔ (startText query).text ≤ r.text ∧ r.text ≤ (endText query).text := by
  have hcounted : counted projection "available_from" = some (.str r.text) := by
    rw [counted, h, Option.filter_some_pos (by simp [truthy, rendering_ne])]
  rw [inTextWindow, hcounted, Option.all_some, decide_eq_true_eq, startText, endText, Rendering.text_ofTime,
    Rendering.text_ofTime]
  exact Iff.rfl

/-- The text window is the window of the instants for a rendering that is not misread, and for no other. -/
theorem textWindow_exact_iff (query : FormalContentSignalQuery) (r : Rendering) :
    (((startText query).text ≤ r.text ∧ r.text ≤ (endText query).text) ↔ InWindow query r) ↔ ¬ Misread query r := by
  have hstart : (startText query).instant = query.windowStart.val / 1000000 := Rendering.instant_ofTime _
  have hend : (endText query).instant = query.windowEnd.val / 1000000 := Rendering.instant_ofTime _
  rw [Rendering.start_text_le_iff rfl, Rendering.text_le_end_iff rfl, InWindow, ← hstart, ← hend, Misread]
  have hlate : r.StartsLate (startText query) → ¬ (startText query).instant ≤ r.instant := startsLate_not_le
  have hearly : r.StartsEarly (startText query) → (startText query).instant ≤ r.instant := startsEarly_le
  have hends : r.EndsEarly (endText query) → r.instant ≤ (endText query).instant := endsEarly_le
  tauto

end Window

section Answers
variable {D : Type} [DecidableEq D]

/-- A claim that symbol and support let through is in an answer exactly when its instant is in the window, but for the
renderings that are misread against a bound. -/
theorem formal_window_exact_iff (rt : FormalRuntime D) (services : FormalServices D) (query : FormalContentSignalQuery)
    {answer : List Fields} (h : formalFactorSignals rt services query = .ok answer)
    {projector : HistoricalClaimProjector D} (hprojector : services.projector = some projector) {claimId : String}
    (hclaim : claimId ∈ claimsForSnapshot services query.contentSnapshotId) {projection : Fields}
    (hprojection : projectionOf rt projector query claimId = .ok (some projection))
    (hwanted : isWanted rt query projection = true) {support : Int}
    (hsupport : intOf rt (counted projection "support_count") = .ok support) (hmin : query.minSupport ≤ support)
    {r : Rendering} (havailable : Json.lookup projection "available_from" = some (.str r.text)) :
    ((∃ fields ∈ answer, Json.lookup fields "claim_id" = some (.str claimId)) ↔ InWindow query r) ↔
      ¬ Misread query r := by
  have hincluded : (∃ fields ∈ answer, Json.lookup fields "claim_id" = some (.str claimId)) ↔
      (startText query).text ≤ r.text ∧ r.text ≤ (endText query).text := by
    rw [included_iff h hprojector hclaim hprojection, ← inTextWindow_iff havailable]
    exact ⟨fun hincluded => hincluded.2.1, fun hwindow => ⟨hwanted, hwindow, support, hsupport, hmin⟩⟩
  rw [hincluded]
  exact textWindow_exact_iff query r

end Answers

section Plain

/-- `2026-01-05T00:00:00Z`. -/
def fifthZulu : Rendering where
  second := 1767571200
  zulu := true
  inYears := by decide

def fifthEvent : ClaimStateEvent Json := activation "000001.SZ" fifthZulu.text

def untilFifth : FormalContentSignalQuery := queryFor "000001.SZ" (some ⟨fifth, by decide⟩)

theorem fifthZulu_inWindow : InWindow untilFifth fifthZulu := by
  constructor <;>
    norm_num [untilFifth, queryFor, FormalContentSignalQuery.windowStart, FormalContentSignalQuery.windowEnd,
      Rendering.instant, fifthZulu, fractionValue, fifth, seconds]

/-- A claim that becomes available at the window's end, written with a `Z`, is left out by the window alone. -/
theorem window_end_is_missed :
    InWindow untilFifth fifthZulu ∧
      claimsOf (formalFactorSignals plainRuntime (plainServices fifthEvent) untilFifth) = some [] ∧
      claimsOf (formalFactorSignals plainRuntime (plainServices fifthEvent) (queryFor "000001.SZ" none)) =
        some [some (.str "claim-1")] :=
  ⟨fifthZulu_inWindow, by decide, by decide⟩

def fifthProjection : Fields :=
  (projectionOf plainRuntime (plainProjector fifthEvent) untilFifth "claim-1").toOption.join.getD []

theorem projectionOf_fifth :
    projectionOf plainRuntime (plainProjector fifthEvent) untilFifth "claim-1" = .ok (some fifthProjection) := by
  have hsome :
      (projectionOf plainRuntime (plainProjector fifthEvent) untilFifth "claim-1").toOption.join.isSome = true := by
    decide
  obtain ⟨projection, hread⟩ := Option.isSome_iff_exists.mp hsome
  have hprojection : fifthProjection = projection := by rw [fifthProjection, hread, Option.getD_some]
  rw [hprojection]
  exact toOption_eq_some.mp (Option.join_eq_some_iff.mp hread)

theorem untilFifth_returns :
    ∃ answer, formalFactorSignals plainRuntime (plainServices fifthEvent) untilFifth = .ok answer := by
  refine toBool_eq_true.mp ?_
  decide

theorem fifth_window_exact_iff : ∃ answer,
    formalFactorSignals plainRuntime (plainServices fifthEvent) untilFifth = .ok answer ∧
      (((∃ fields ∈ answer, Json.lookup fields "claim_id" = some (.str "claim-1")) ↔ InWindow untilFifth fifthZulu) ↔
        ¬ Misread untilFifth fifthZulu) := by
  obtain ⟨answer, h⟩ := untilFifth_returns
  have hclaim : "claim-1" ∈ claimsForSnapshot (plainServices fifthEvent) untilFifth.contentSnapshotId := by
    decide
  have hwanted : isWanted plainRuntime untilFifth fifthProjection = true := by decide
  have hsupport : intOf plainRuntime (counted fifthProjection "support_count") = .ok 2 := by decide
  have havailable : Json.lookup fifthProjection "available_from" = some (.str fifthZulu.text) := by decide
  exact ⟨answer, h, formal_window_exact_iff plainRuntime (plainServices fifthEvent) untilFifth h rfl hclaim
    projectionOf_fifth hwanted hsupport (by decide) havailable⟩

end Plain
end StockContent.Signals
