import StockContent.Storage.HashChain
import StockContent.Storage.Machine
import StockContent.Verification.VerificationResult

/-! Claim state events: what became known about a claim and when, named by a digest of
what the event says and chained by naming the event before it. -/
namespace StockContent.Ledger
open Storage Verification

/-- What an event says. An event carries datetimes, its row and its identity instants. -/
structure EventFields (T D : Type) where
  claimId : String
  eventType : String
  payload : List (String × Json)
  knownFrom : Option T
  businessValidFrom : Option T := none
  businessValidTo : Option T := none
  knownTo : Option T := none
  sourceAvailableFrom : Option T := none
  previousEventHash : Option D := none
  legacyHistoryIncomplete : Bool := false
  deriving DecidableEq

structure ClaimStateEvent (D : Type) extends EventFields DateTime D where
  eventId : D
  eventHash : D
  deriving DecidableEq

inductive LedgerError (D : Type) where
  | valueError (message : String)
  | multipleSuccessors (eventId : D)
  | differentPayload (eventId : D)
  | integrityError
  deriving DecidableEq

namespace EventFields
variable {T U D : Type}

def mapTimes (f : T → U) (fields : EventFields T D) : EventFields U D :=
  { fields with
    knownFrom := fields.knownFrom.map f
    businessValidFrom := fields.businessValidFrom.map f
    businessValidTo := fields.businessValidTo.map f
    knownTo := fields.knownTo.map f
    sourceAvailableFrom := fields.sourceAvailableFrom.map f }

def times (fields : EventFields T D) : List (String × Option T) :=
  [("known_from", fields.knownFrom), ("known_to", fields.knownTo),
    ("business_valid_from", fields.businessValidFrom), ("business_valid_to", fields.businessValidTo),
    ("source_available_from", fields.sourceAvailableFrom)]

/-- The payload as text with sorted keys says it. -/
def canonicalPayload (fields : EventFields T D) : List (String × Json) :=
  Json.sortFields (Json.canonicalFields fields.payload)

def identity (fields : EventFields DateTime D) : EventFields Time D :=
  { fields.mapTimes DateTime.utc with payload := fields.canonicalPayload }

/-- The identity without the place in the chain. -/
def logicalIdentity (fields : EventFields DateTime D) : EventFields Time D :=
  { fields.identity with previousEventHash := none }

def requireUtc (field : String) (value : Option DateTime) : Except (LedgerError D) Unit :=
  if value.all (·.offset = some 0) then .ok () else .error (.valueError (field ++ " must be timezone-aware UTC"))

def ordered : Option DateTime → Option DateTime → Bool
  | some start, some stop => start.utc ≤ stop.utc
  | _, _ => true

def validate (fields : EventFields DateTime D) : Except (LedgerError D) Unit :=
  if fields.claimId = "" ∨ fields.eventType = "" then .error (.valueError "claim_id and event_type are required")
  else if fields.knownFrom = none ∧ fields.legacyHistoryIncomplete = false then
    .error (.valueError "known_from is required unless legacy_history_incomplete=true")
  else do
    fields.times.forM fun (field, value) => requireUtc field value
    if ordered fields.knownFrom fields.knownTo = false then
      .error (.valueError "known_from must not be after known_to")
    else if ordered fields.businessValidFrom fields.businessValidTo = false then
      .error (.valueError "business_valid_from must not be after business_valid_to")
    else .ok ()

structure Valid (fields : EventFields DateTime D) : Prop where
  named : ¬ (fields.claimId = "" ∨ fields.eventType = "")
  known : ¬ (fields.knownFrom = none ∧ fields.legacyHistoryIncomplete = false)
  utc : ∀ t ∈ fields.times, t.2.all (·.offset = some 0) = true
  knownOrder : ordered fields.knownFrom fields.knownTo = true
  businessOrder : ordered fields.businessValidFrom fields.businessValidTo = true

theorem requireUtc_eq_ok {field : String} {value : Option DateTime} :
    (requireUtc field value : Except (LedgerError D) Unit) = .ok () ↔ value.all (·.offset = some 0) = true := by
  unfold requireUtc
  split <;> simp_all

theorem validate_eq_ok {fields : EventFields DateTime D} : fields.validate = .ok () ↔ fields.Valid := by
  unfold validate
  constructor
  · intro h
    split at h
    · cases h
    rename_i hnamed
    split at h
    · cases h
    rename_i hknown
    obtain ⟨⟨⟩, hutc, h⟩ := bind_eq_ok.mp h
    split at h
    · cases h
    rename_i hk
    split at h
    · cases h
    rename_i hb
    exact ⟨hnamed, hknown, fun t ht => requireUtc_eq_ok.mp (forM_eq_ok.mp hutc t ht),
      eq_true_of_ne_false hk, eq_true_of_ne_false hb⟩
  · intro h
    rw [if_neg h.named, if_neg h.known]
    refine bind_eq_ok.mpr ⟨(), forM_eq_ok.mpr fun t ht => requireUtc_eq_ok.mpr (h.utc t ht), ?_⟩
    simp [h.knownOrder, h.businessOrder]

/-- Reading the instants of a valid event as UTC gives its datetimes back. -/
theorem Valid.mapTimes_utc {fields : EventFields DateTime D} (h : fields.Valid) :
    (fields.mapTimes DateTime.utc).mapTimes DateTime.ofUtc = fields := by
  have hback {value : Option DateTime} (hv : value.all (·.offset = some 0) = true) :
      (value.map DateTime.utc).map DateTime.ofUtc = value := by
    rcases value with _ | ⟨wall, offset⟩
    · rfl
    · obtain rfl : offset = some 0 := by simpa using hv
      simp [DateTime.utc, DateTime.ofUtc]
  have hutc := h.utc
  simp only [times, List.forall_mem_cons] at hutc
  obtain ⟨h₁, h₂, h₃, h₄, h₅, _⟩ := hutc
  simp only [mapTimes, hback h₁, hback h₂, hback h₃, hback h₄, hback h₅]

end EventFields

/-- How events are named: by two digests of their identity. `precedes` is the order of
the names as text. -/
structure EventDigests (D : Type) where
  eventId : EventFields Time D → D
  eventHash : D → EventFields Time D → D
  precedes : D → D → Bool

namespace EventDigests
variable {D : Type} (digests : EventDigests D)

/-- A digest is of one text only. -/
structure CollisionFree : Prop where
  eventId : ∀ identity identity', digests.eventId identity = digests.eventId identity' → identity = identity'
  eventHash : ∀ id identity id' identity',
    digests.eventHash id identity = digests.eventHash id' identity' → identity = identity'

/-- The event that says these things, under its own names. -/
def sign (fields : EventFields DateTime D) : ClaimStateEvent D :=
  { fields with
    eventId := digests.eventId fields.identity
    eventHash := digests.eventHash (digests.eventId fields.identity) fields.identity }

@[simp] theorem sign_fields (fields : EventFields DateTime D) : (digests.sign fields).toEventFields = fields := rfl

variable [DecidableEq D]

/-- The constructor: names that are given have to be the event's own. -/
def construct (fields : EventFields DateTime D) (eventId eventHash : Option D) :
    Except (LedgerError D) (ClaimStateEvent D) := do
  fields.validate
  if eventId.any (· ≠ (digests.sign fields).eventId) then
    .error (.valueError "event_id does not match canonical event identity")
  else if eventHash.any (· ≠ (digests.sign fields).eventHash) then
    .error (.valueError "event_hash does not match canonical event identity")
  else .ok (digests.sign fields)

/-- Constructing an event again validates its names and catches tampering after it was read. -/
def reconstruct (event : ClaimStateEvent D) : Except (LedgerError D) Unit := do
  let _ ← digests.construct event.toEventFields (some event.eventId) (some event.eventHash)
  return ()

/-- A valid event under its own names. -/
structure Authentic (event : ClaimStateEvent D) : Prop where
  valid : event.Valid
  signed : digests.sign event.toEventFields = event

theorem construct_eq_ok {fields : EventFields DateTime D} {event : ClaimStateEvent D} :
    digests.construct fields none none = .ok event ↔ fields.Valid ∧ event = digests.sign fields := by
  unfold construct
  rw [bind_eq_ok]
  constructor
  · rintro ⟨⟨⟩, hv, h⟩
    exact ⟨EventFields.validate_eq_ok.mp hv, (Except.ok.inj h).symm⟩
  · rintro ⟨hv, rfl⟩
    exact ⟨(), EventFields.validate_eq_ok.mpr hv, rfl⟩

theorem construct_names {fields : EventFields DateTime D} {eventId eventHash : D} {event : ClaimStateEvent D} :
    digests.construct fields (some eventId) (some eventHash) = .ok event ↔
      event = ⟨fields, eventId, eventHash⟩ ∧ digests.Authentic event := by
  unfold construct
  rw [bind_eq_ok]
  constructor
  · rintro ⟨⟨⟩, hv, h⟩
    split at h
    · cases h
    rename_i hid
    split at h
    · cases h
    rename_i hhash
    cases h
    obtain rfl : eventId = (digests.sign fields).eventId := by simpa using hid
    obtain rfl : eventHash = (digests.sign fields).eventHash := by simpa using hhash
    exact ⟨rfl, EventFields.validate_eq_ok.mp hv, rfl⟩
  · rintro ⟨rfl, hv, hs⟩
    refine ⟨(), EventFields.validate_eq_ok.mpr hv, ?_⟩
    simp [hs]

theorem reconstruct_eq_ok {event : ClaimStateEvent D} :
    digests.reconstruct event = .ok () ↔ digests.Authentic event := by
  unfold reconstruct
  rw [bind_eq_ok]
  constructor
  · rintro ⟨event', h, _⟩
    obtain ⟨rfl, ha⟩ := (digests.construct_names).mp h
    exact ha
  · intro h
    exact ⟨event, (digests.construct_names).mpr ⟨rfl, h⟩, rfl⟩

end EventDigests

section Plain

def optional {A : Type} (text : A → Json) : Option A → Json
  | none => .null
  | some a => .arr [text a]

def plainText (identity : EventFields Time Json) : Json :=
  .arr [.str identity.claimId, .str identity.eventType, .obj identity.payload, optional .int identity.knownFrom,
    optional .int identity.businessValidFrom, optional .int identity.businessValidTo,
    optional .int identity.knownTo, optional .int identity.sourceAvailableFrom,
    optional id identity.previousEventHash, .bool identity.legacyHistoryIncomplete]

/-- Digests that are the text they are taken of. -/
def plainDigests : EventDigests Json where
  eventId := plainText
  eventHash _ := plainText
  precedes _ _ := true

theorem optional_injective {A : Type} {text : A → Json} (htext : ∀ a b, text a = text b → a = b) {a b : Option A}
    (h : optional text a = optional text b) : a = b := by
  cases a with
  | none => cases b <;> simp_all [optional]
  | some a =>
    cases b with
    | none => simp [optional] at h
    | some b => rw [htext a b (by simpa [optional] using h)]

theorem plainText_injective {identity identity' : EventFields Time Json}
    (h : plainText identity = plainText identity') : identity = identity' := by
  have hint {a b : Option Int} : optional Json.int a = optional Json.int b → a = b :=
    optional_injective fun _ _ he => Json.int.inj he
  have hid {a b : Option Json} : optional id a = optional id b → a = b := optional_injective fun _ _ he => he
  obtain ⟨⟩ := identity
  obtain ⟨⟩ := identity'
  simp only [plainText, Json.arr.injEq, List.cons.injEq, Json.str.injEq, Json.obj.injEq, Json.bool.injEq] at h
  obtain ⟨rfl, rfl, rfl, h₁, h₂, h₃, h₄, h₅, h₆, rfl, _⟩ := h
  rw [hint h₁, hint h₂, hint h₃, hint h₄, hint h₅, hid h₆]

theorem plainDigests_collisionFree : plainDigests.CollisionFree :=
  ⟨fun _ _ => plainText_injective, fun _ _ _ _ => plainText_injective⟩

end Plain

/-- The clocks of a query: business time, knowledge time, availability of the source. -/
structure QueryClocks (T : Type) where
  businessAsOf : T
  knowledgeAsOf : T
  availabilityAsOf : T

/-- A business interval that is still open has no end, knowledge about it neither. -/
def EventFields.visibleAt {D : Type} (event : EventFields DateTime D) (clocks : QueryClocks Time) : Bool :=
  !event.legacyHistoryIncomplete && event.knownFrom.any (·.utc ≤ clocks.knowledgeAsOf) &&
    event.knownTo.all (clocks.knowledgeAsOf < ·.utc) &&
    event.sourceAvailableFrom.any (·.utc ≤ clocks.availabilityAsOf) &&
    event.businessValidFrom.all (·.utc ≤ clocks.businessAsOf) &&
    event.businessValidTo.all (clocks.businessAsOf < ·.utc)

section Chain
variable {D : Type} [DecidableEq D] (digests : EventDigests D)

/-- Append order is in the predecessors, not in business or knowledge time. -/
def eventLinks : Links (ClaimStateEvent D) D where
  digest event := event.eventHash
  previous event := event.previousEventHash

def singleSuccessors : List (Option D) → List (ClaimStateEvent D) → Except (LedgerError D) Unit
  | _, [] => .ok ()
  | seen, event :: events =>
    if event.previousEventHash ∈ seen then .error (.multipleSuccessors event.eventId)
    else singleSuccessors (event.previousEventHash :: seen) events

def validateEventChain (events : List (ClaimStateEvent D)) : Except (LedgerError D) (List (ClaimStateEvent D)) := do
  singleSuccessors [] events
  eventLinks.follow digests.reconstruct
    (.valueError "claim state event chain is broken or has an unreachable event") events.length none events

/-- Events in append order: each names the one before it, and all of them are authentic. -/
structure Chained (events : List (ClaimStateEvent D)) : Prop where
  linked : eventLinks.Linked none events
  successors : (events.map (·.previousEventHash)).Nodup
  authentic : ∀ event ∈ events, digests.Authentic event

theorem singleSuccessors_eq_ok {seen : List (Option D)} {events : List (ClaimStateEvent D)} :
    singleSuccessors seen events = .ok () ↔
      (events.map (·.previousEventHash)).Nodup ∧ ∀ event ∈ events, event.previousEventHash ∉ seen := by
  induction events generalizing seen with
  | nil => simp [singleSuccessors]
  | cons event events ih =>
    rw [singleSuccessors]
    split
    · rename_i hseen
      simp [hseen]
    · rename_i hseen
      rw [ih, List.forall_mem_cons]
      simp only [List.map_cons, List.nodup_cons, List.mem_cons, not_or, List.mem_map]
      constructor
      · rintro ⟨hn, hs⟩
        refine ⟨⟨?_, hn⟩, hseen, fun e he => (hs e he).2⟩
        rintro ⟨e, he, heq⟩
        exact (hs e he).1 heq
      · rintro ⟨⟨hnot, hn⟩, _, hs⟩
        exact ⟨hn, fun e he => ⟨fun heq => hnot ⟨e, he, heq⟩, hs e he⟩⟩

variable {digests}

/-- Validation accepts the events of one chain, in whatever order they come, and puts
them in append order. -/
theorem validateEventChain_eq_ok {events ordered : List (ClaimStateEvent D)} :
    validateEventChain digests events = .ok ordered ↔ events.Perm ordered ∧ Chained digests ordered := by
  unfold validateEventChain
  rw [bind_eq_ok]
  constructor
  · rintro ⟨⟨⟩, hs, h⟩
    have hn := (singleSuccessors_eq_ok.mp hs).1
    obtain ⟨hp, hl, ha⟩ := (eventLinks.follow_eq_ok _ _ (Nat.le_refl _) hn).mp h
    exact ⟨hp, hl, (hp.map _).nodup hn, fun e he => digests.reconstruct_eq_ok.mp (ha e he)⟩
  · rintro ⟨hp, hc⟩
    have hn : (events.map (·.previousEventHash)).Nodup := (hp.map _).nodup_iff.mpr hc.successors
    exact ⟨(), singleSuccessors_eq_ok.mpr ⟨hn, by simp⟩,
      (eventLinks.follow_eq_ok _ _ (Nat.le_refl _) hn).mpr
        ⟨hp, hc.linked, fun e he => digests.reconstruct_eq_ok.mpr (hc.authentic e he)⟩⟩

omit [DecidableEq D] in
/-- A chain among the events of a longer chain is its beginning. -/
theorem Chained.prefix {events events' more : List (ClaimStateEvent D)} (h : Chained digests events)
    (h' : Chained digests events') (hp : (events ++ more).Perm events') :
    ∃ rest, events' = events ++ rest ∧ more.Perm rest :=
  h.linked.prefix h'.linked hp h'.successors

omit [DecidableEq D] in
theorem Chained.of_append {events more : List (ClaimStateEvent D)} (h : Chained digests (events ++ more)) :
    Chained digests events where
  linked := ((eventLinks.linked_append none events more).mp h.linked).1
  successors := by
    have hn := h.successors
    rw [List.map_append] at hn
    exact hn.of_append_left
  authentic event he := h.authentic event (List.mem_append_left _ he)

end Chain
end StockContent.Ledger

/-! What the validation of a claim's events lets through: one chain, from an event without
predecessor on, in which every event has its place. -/
namespace StockContent.Ledger
open Storage

section Chain
variable {D : Type} [DecidableEq D]

/-- An event as its constructor lets it be: valid, and under its own names. -/
abbrev AuthenticEvent (digests : EventDigests D) := { event : ClaimStateEvent D // digests.Authentic event }

omit [DecidableEq D] in
/-- The first event names no predecessor, every other one the event before it, and no predecessor is named twice. -/
structure SingleChain (chain : List (ClaimStateEvent D)) : Prop where
  starts : ∀ first ∈ chain.head?, first.previousEventHash = none
  linked : chain.IsChain fun before after => after.previousEventHash = some before.eventHash
  single : chain.Pairwise fun before after => before.previousEventHash ≠ after.previousEventHash

variable {digests : EventDigests D}

omit [DecidableEq D] in
theorem chained_iff {chain : List (ClaimStateEvent D)} (h : ∀ event ∈ chain, digests.Authentic event) :
    Chained digests chain ↔ SingleChain chain := by
  constructor
  · intro hchained
    obtain ⟨hstarts, hlinked⟩ := eventLinks.linked_iff_isChain.mp hchained.linked
    exact ⟨hstarts, hlinked, List.pairwise_map.mp hchained.successors⟩
  · intro hsingle
    exact ⟨eventLinks.linked_iff_isChain.mpr ⟨hsingle.starts, hsingle.linked⟩, List.pairwise_map.mpr hsingle.single, h⟩

/-- The events of one chain are put in its order, however they come; all others are turned away. -/
theorem chain_validation_exact (digests : EventDigests D) (events : List (AuthenticEvent digests)) :
    ((∃ ordered, validateEventChain digests (events.map (·.1)) = .ok ordered) ↔
        ∃ chain, (events.map (·.1)).Perm chain ∧ SingleChain chain) ∧
      (∀ ordered, validateEventChain digests (events.map (·.1)) = .ok ordered →
        (events.map (·.1)).Perm ordered ∧ SingleChain ordered ∧
          ∀ events', events'.Perm (events.map (·.1)) → validateEventChain digests events' = .ok ordered) ∧
      ∀ fuel ≥ events.length, ∀ broken : LedgerError D,
        eventLinks.follow digests.reconstruct broken fuel none (events.map (·.1)) =
          eventLinks.follow digests.reconstruct broken events.length none (events.map (·.1)) := by
  have hauthentic {chain : List (ClaimStateEvent D)} (hp : (events.map (·.1)).Perm chain) :
      ∀ event ∈ chain, digests.Authentic event := by
    intro event hm
    obtain ⟨source, _, rfl⟩ := List.mem_map.mp (hp.mem_iff.mpr hm)
    exact source.2
  refine ⟨⟨?_, ?_⟩, ?_, ?_⟩
  · rintro ⟨ordered, h⟩
    obtain ⟨hp, hchained⟩ := validateEventChain_eq_ok.mp h
    exact ⟨ordered, hp, (chained_iff (hauthentic hp)).mp hchained⟩
  · rintro ⟨chain, hp, hsingle⟩
    exact ⟨chain, validateEventChain_eq_ok.mpr ⟨hp, (chained_iff (hauthentic hp)).mpr hsingle⟩⟩
  · intro ordered h
    obtain ⟨hp, hchained⟩ := validateEventChain_eq_ok.mp h
    exact ⟨hp, (chained_iff (hauthentic hp)).mp hchained, fun events' hp' =>
      validateEventChain_eq_ok.mpr ⟨hp'.trans hp, hchained⟩⟩
  · intro fuel hfuel broken
    exact Links.follow_fuel _ _ (by simpa using hfuel) (by simp)

end Chain
end StockContent.Ledger
