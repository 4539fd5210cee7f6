import StockContent.Ledger.EventRuns
import StockContent.Ledger.SystemEvents
import StockContent.Lifecycle.LifecycleEvents

/-! Writes to a claim's chain outside of a snapshot's commit: a refreshed verification, and
the mirror of a lifecycle event. Both read the chain and name its last event. -/
namespace StockContent.Ledger
open Storage Verification Occurrence Lifecycle

def SystemEvent.claimId : SystemEvent → String
  | initial state => state.claim.claimId
  | refresh claimId .. => claimId
  | lifecycle claimId .. => claimId

section Writes
variable {D : Type} [DecidableEq D] (schema : LedgerSchema D)

/-- The event of a writer, behind the chain as it was read. -/
def appendBehind (writer : SystemEvent) (prior : List (ClaimStateEvent D)) (t : EventTable D) :
    Except (LedgerError D) (EventTable D × Unit) := do
  let event ← schema.construct (writer.fields (prior.getLast?.map (·.eventHash))) none none
  let (t, _) ← appendInSession schema event t
  return (t, ())

/-- A verification refresh records the status under its own key. -/
def appendRefresh (claimId : String) (status : ResultStatus) (verificationId provider : String)
    (availableAt : DateTime) (t : EventTable D) : Except (LedgerError D) (EventTable D × Unit) := do
  let prior ← listForClaim schema claimId t
  appendBehind schema (.refresh claimId status verificationId provider availableAt) prior t

/-- The mirror that is written for a lifecycle event. -/
def mirrorOf (event : KnowledgeLifecycleEvent) : SystemEvent :=
  .lifecycle event.targetId event.toStatus event.lifecycleEventId event.recordedAt event.effectiveAt

def mirrors (event : KnowledgeLifecycleEvent) (item : ClaimStateEvent D) : Bool :=
  item.eventType = "LIFECYCLE" && Json.lookup item.payload "artifact_id" = some (.str event.lifecycleEventId) &&
    item.knownFrom.any (sameMoment · event.recordedAt)

/-- Mirror a lifecycle event into the state stream of its claim, unless it is there. -/
def appendClaimState (event : KnowledgeLifecycleEvent) (t : EventTable D) :
    Except (LedgerError D) (EventTable D × Unit) := do
  let prior ← listForClaim schema event.targetId t
  if prior.any (mirrors event) then return (t, ())
  else appendBehind schema (mirrorOf event) prior t

variable {schema} {t u : EventTable D} {writer : SystemEvent}

omit [DecidableEq D] in
@[simp] theorem SystemEvent.fields_claimId (writer : SystemEvent) (previous : Option D) :
    (writer.fields previous).claimId = writer.claimId := by cases writer <;> rfl

/-- What a write behind the chain does: its event ends the chain, or was there before. -/
theorem appendBehind_cases (hs : Sound schema t) (hfree : schema.CollisionFree)
    (h : appendBehind schema writer (chain writer.claimId t) t = .ok (u, ())) :
    ∃ event, schema.Authentic event ∧ writer.Writes event ∧ Sound schema u ∧
      ((u = t ∧ ∃ e ∈ chain writer.claimId t, e.logicalIdentity = event.logicalIdentity) ∨
        ∀ claimId, chain claimId u = chain claimId t ++ if writer.claimId = claimId then [event] else []) := by
  obtain ⟨event, hevent, h⟩ := bind_eq_ok.mp h
  obtain ⟨⟨v, stored⟩, happend, h⟩ := bind_eq_ok.mp h
  cases h
  obtain ⟨hv, rfl⟩ := schema.construct_eq_ok.mp hevent
  have hclaim : (writer.fields ((chain writer.claimId t).getLast?.map (·.eventHash))).claimId = writer.claimId :=
    writer.fields_claimId _
  obtain ⟨ha, hcases⟩ := append_cases hs hfree happend
  refine ⟨_, ha, ?_, ?_, ?_⟩
  · simp [SystemEvent.Writes]
  · rcases hcases with ⟨rfl, _⟩ | ⟨_, hu, hnew, _⟩
    · exact hs
    · refine hs.of_store ha hnew ?_ hu
      simp
  · rcases hcases with ⟨rfl, e, he, hl, _⟩ | ⟨_, hu, _⟩
    · rw [EventDigests.sign_fields, hclaim] at he
      exact .inl ⟨rfl, e, he, hl⟩
    · refine .inr fun claimId => ?_
      rw [chain_append (store_eq_some hu).2.2, row_event ha, ClaimStateEvent.row_claimId]
      simp

/-- The table has room for the event of a writer, wherever it is placed. -/
def Accommodates (schema : LedgerSchema D) (writer : SystemEvent) : Prop :=
  ∀ previous, schema.fits (schema.sign (writer.fields previous)).row = true

/-- A write behind the chain goes through exactly when the writer's event is valid. -/
theorem appendBehind_succeeds_iff (hs : Sound schema t) (hfree : schema.CollisionFree)
    (hfits : Accommodates schema writer) :
    (∃ u, appendBehind schema writer (chain writer.claimId t) t = .ok (u, ())) ↔
      ∀ previous : Option D, (writer.fields previous).Valid := by
  have hsame (previous previous' : Option D) (h : (writer.fields previous).Valid) : (writer.fields previous').Valid := by
    cases writer <;> exact ⟨h.named, h.known, h.utc, h.knownOrder, h.businessOrder⟩
  have hopen (previous : Option D) :
      (writer.fields previous).knownTo = none ∧ (writer.fields previous).businessValidTo = none := by
    cases writer <;> exact ⟨rfl, rfl⟩
  constructor
  · rintro ⟨u, h⟩ previous
    obtain ⟨event, hevent, _⟩ := bind_eq_ok.mp h
    exact hsame _ _ (schema.construct_eq_ok.mp hevent).1
  · intro hv
    generalize hlast : (chain writer.claimId t).getLast?.map (·.eventHash) = tail
    have ha : schema.Authentic (schema.sign (writer.fields tail)) := ⟨hv tail, rfl⟩
    have hclaim : (schema.sign (writer.fields tail)).claimId = writer.claimId := writer.fields_claimId tail
    have happend : ∃ p, appendInSession schema (schema.sign (writer.fields tail)) t = .ok p := by
      by_cases hl : (schema.sign (writer.fields tail)).logicalIdentity ∈ keys writer.claimId t
      · obtain ⟨stored, hm, heq⟩ := List.mem_map.mp hl
        obtain ⟨returned, h, _⟩ := append_retry hs hfree ha (hclaim ▸ hm) heq
        exact ⟨_, h⟩
      · have hprev : (schema.sign (writer.fields tail)).previousEventHash =
            (chain (schema.sign (writer.fields tail)).claimId t).getLast?.map (·.eventHash) := by
          rw [hclaim, hlast]
          exact writer.fields_previous tail
        rw [← hclaim] at hl
        obtain ⟨u, hu⟩ := hs.store_succeeds hfree ha hl hprev (hopen tail) (hfits tail)
        refine ⟨(u, schema.sign (writer.fields tail)), ?_⟩
        rw [append_new hs hfree ha fun stored hm heq => hl (List.mem_map.mpr ⟨stored, hm, heq⟩), hprev, hu]
        cases (chain (schema.sign (writer.fields tail)).claimId t).getLast? <;> simp
    obtain ⟨⟨u, stored⟩, hu⟩ := happend
    refine ⟨u, ?_⟩
    rw [appendBehind, hlast]
    exact bind_eq_ok.mpr ⟨_, schema.construct_eq_ok.mpr ⟨hv tail, rfl⟩, bind_eq_ok.mpr ⟨(u, stored), hu, rfl⟩⟩

end Writes
end StockContent.Ledger
