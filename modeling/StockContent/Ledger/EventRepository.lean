import StockContent.Ledger.ClaimStateEvent
import StockContent.Storage.Table

/-! The claim event repository: rows of events under their ids, and an append that keeps
the events of a claim one chain. -/
namespace StockContent.Ledger
open Storage Verification

structure ClaimStateEventRow (D : Type) extends EventFields Time D where
  claimStateEventId : D
  eventHash : D
  deriving DecidableEq

abbrev EventTable (D : Type) := Table (@ClaimStateEventRow.claimStateEventId D)

/-- The digests of a ledger, and which rows its column widths and foreign key let in. -/
structure LedgerSchema (D : Type) extends EventDigests D where
  fits : ClaimStateEventRow D → Bool

section Rows
variable {D : Type}

def ClaimStateEvent.row (event : ClaimStateEvent D) : ClaimStateEventRow D :=
  { event.toEventFields.mapTimes DateTime.utc with
    claimStateEventId := event.eventId
    eventHash := event.eventHash }

/-- Instants are read back as UTC. -/
def ClaimStateEventRow.event (row : ClaimStateEventRow D) : ClaimStateEvent D :=
  { row.toEventFields.mapTimes DateTime.ofUtc with
    eventId := row.claimStateEventId
    eventHash := row.eventHash }

def rowsFor (claimId : String) (t : EventTable D) : List (ClaimStateEventRow D) :=
  t.rows.filter (·.claimId = claimId)

/-- The stored events of a claim, oldest row first. -/
def chain (claimId : String) (t : EventTable D) : List (ClaimStateEvent D) :=
  (rowsFor claimId t).map ClaimStateEventRow.event

def before : Option Time → Option Time → Bool
  | some start, some stop => start < stop
  | _, _ => true

variable [DecidableEq D]

/-- Payloads agree as decoded documents, the other columns by value. -/
def ClaimStateEventRow.agrees (row : ClaimStateEventRow D) (event : ClaimStateEvent D) : Bool :=
  { row.toEventFields with payload := [] } = { event.toEventFields.mapTimes DateTime.utc with payload := [] } ∧
    (Json.obj row.payload).same (.obj event.payload) = true ∧ row.eventHash = event.eventHash

end Rows

section Repository
variable {D : Type} [DecidableEq D] (schema : LedgerSchema D)

/-- The constraints of the table next to its key: intervals are not empty, a hash is stored
once, and an event of a claim has one successor at most. -/
def admits (row : ClaimStateEventRow D) (t : EventTable D) : Bool :=
  schema.fits row && before row.knownFrom row.knownTo && before row.businessValidFrom row.businessValidTo &&
    t.rows.all (·.eventHash ≠ row.eventHash) &&
    t.rows.all fun r => !(r.claimId = row.claimId && r.previousEventHash = row.previousEventHash)

def store (row : ClaimStateEventRow D) (t : EventTable D) : Option (EventTable D) :=
  if admits schema row t then t.insert row else none

def eventsFromRows (rows : List (ClaimStateEventRow D)) : Except (LedgerError D) (List (ClaimStateEvent D)) :=
  rows.mapM fun row =>
    schema.construct (row.mapTimes DateTime.ofUtc) (some row.claimStateEventId) (some row.eventHash)

def listForClaim (claimId : String) (t : EventTable D) : Except (LedgerError D) (List (ClaimStateEvent D)) := do
  let events ← eventsFromRows schema (rowsFor claimId t)
  validateEventChain schema.toEventDigests events

def appendInSession (event : ClaimStateEvent D) (t : EventTable D) :
    Except (LedgerError D) (EventTable D × ClaimStateEvent D) := do
  schema.reconstruct event
  match t.get event.eventId with
  | some row => if row.agrees event then .ok (t, event) else .error (.differentPayload event.eventId)
  | none =>
    let existing ← listForClaim schema event.claimId t
    match existing.filter (·.logicalIdentity = event.logicalIdentity) with
    | _ :: _ :: _ => .error (.valueError "claim state event logical identity is ambiguous")
    | [stored] => .ok (t, stored)
    | [] =>
      -- A claim without events has no tail to compare with.
      if existing.getLast?.any fun tail => event.previousEventHash ≠ some tail.eventHash then
        .error (.valueError "claim state event previous_event_hash does not match chain tail")
      else match store schema event.row t with
        | none => .error .integrityError
        | some t => .ok (t, event)

def append (t : EventTable D) (event : ClaimStateEvent D) :
    EventTable D × Except (LedgerError D) (ClaimStateEvent D) := settle t (appendInSession schema event t)

def ledger : Machine (EventTable D) (ClaimStateEvent D) (Except (LedgerError D) (ClaimStateEvent D)) := ⟨append schema⟩

end Repository

section Reads
variable {D : Type}

@[simp] theorem ClaimStateEventRow.event_eventHash (row : ClaimStateEventRow D) :
    row.event.eventHash = row.eventHash := rfl
@[simp] theorem ClaimStateEventRow.event_claimId (row : ClaimStateEventRow D) :
    row.event.claimId = row.claimId := rfl
@[simp] theorem ClaimStateEvent.row_claimId (event : ClaimStateEvent D) : event.row.claimId = event.claimId := rfl

/-- An authentic event is what is read back from its row. -/
theorem row_event {digests : EventDigests D} {event : ClaimStateEvent D} (h : digests.Authentic event) :
    event.row.event = event := by
  have hback := h.valid.mapTimes_utc
  simp only [ClaimStateEventRow.event, ClaimStateEvent.row]
  rw [hback]

@[simp] theorem chain_empty (claimId : String) : chain claimId (Table.empty : EventTable D) = [] := rfl

theorem mem_chain {claimId : String} {t : EventTable D} {event : ClaimStateEvent D} :
    event ∈ chain claimId t ↔ ∃ row ∈ t.rows, row.claimId = claimId ∧ row.event = event := by
  simp [chain, rowsFor, and_assoc]

/-- A new row ends the chain of its claim and leaves the others alone. -/
theorem chain_append {t u : EventTable D} {row : ClaimStateEventRow D} (h : u.rows = t.rows ++ [row])
    (claimId : String) :
    chain claimId u = chain claimId t ++ if row.claimId = claimId then [row.event] else [] := by
  simp only [chain, rowsFor, h, List.filter_append, List.map_append]
  by_cases hc : row.claimId = claimId <;> simp [hc]

variable [DecidableEq D] {schema : LedgerSchema D}

theorem store_eq_some {row : ClaimStateEventRow D} {t u : EventTable D} (h : store schema row t = some u) :
    admits schema row t = true ∧ t.get row.claimStateEventId = none ∧ u.rows = t.rows ++ [row] := by
  unfold store at h
  split at h
  · exact ⟨‹_›, Table.insert_eq_some h⟩
  · cases h

/-- A ledger in which the events of every claim are one chain, without repetition. -/
structure Sound (schema : LedgerSchema D) (t : EventTable D) : Prop where
  chained : ∀ claimId, Chained schema.toEventDigests (chain claimId t)
  distinct : ∀ claimId, ((chain claimId t).map (·.logicalIdentity)).Nodup

theorem eventsFromRows_eq_ok {rows : List (ClaimStateEventRow D)} {events : List (ClaimStateEvent D)} :
    eventsFromRows schema rows = .ok events ↔
      events = rows.map (·.event) ∧ ∀ event ∈ events, schema.Authentic event := by
  induction rows generalizing events with
  | nil =>
    constructor
    · intro h
      cases h
      simp
    · rintro ⟨h, _⟩
      rw [h]
      rfl
  | cons row rows ih =>
    simp only [eventsFromRows, List.mapM_cons, bind_eq_ok] at ih ⊢
    constructor
    · rintro ⟨event, hevent, rest, hrest, h⟩
      cases h
      obtain ⟨rfl, ha⟩ := schema.construct_names.mp hevent
      obtain ⟨rfl, hall⟩ := ih.mp hrest
      exact ⟨rfl, List.forall_mem_cons.mpr ⟨ha, hall⟩⟩
    · rintro ⟨h, hall⟩
      subst h
      rw [List.map_cons, List.forall_mem_cons] at hall
      exact ⟨row.event, schema.construct_names.mpr ⟨rfl, hall.1⟩, _, ih.mpr ⟨rfl, hall.2⟩, rfl⟩

/-- Reading a claim succeeds exactly when its rows, put in append order, are one chain. -/
theorem listForClaim_eq_ok {claimId : String} {t : EventTable D} {events : List (ClaimStateEvent D)} :
    listForClaim schema claimId t = .ok events ↔
      (chain claimId t).Perm events ∧ Chained schema.toEventDigests events := by
  unfold listForClaim
  rw [bind_eq_ok]
  constructor
  · rintro ⟨read, hread, h⟩
    obtain ⟨rfl, _⟩ := eventsFromRows_eq_ok.mp hread
    exact validateEventChain_eq_ok.mp h
  · rintro ⟨hp, hc⟩
    exact ⟨_, eventsFromRows_eq_ok.mpr ⟨rfl, fun event he => hc.authentic event (hp.mem_iff.mp he)⟩,
      validateEventChain_eq_ok.mpr ⟨hp, hc⟩⟩

theorem Sound.listForClaim {t : EventTable D} (h : Sound schema t) (claimId : String) :
    listForClaim schema claimId t = .ok (chain claimId t) :=
  listForClaim_eq_ok.mpr ⟨.refl _, h.chained claimId⟩

end Reads
end StockContent.Ledger
