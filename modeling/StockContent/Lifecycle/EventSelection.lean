import StockContent.Lifecycle.LifecycleEvents
import StockContent.Storage.ByKey

/-! Which of a target's lifecycle events a reader at two clocks is given, out of a list in any order. -/
namespace StockContent.Lifecycle
open Storage Verification

section Clocks

/-- A naive datetime cannot be compared with an aware one. -/
def comparable (a b : DateTime) : Bool := a.offset.isNone == b.offset.isNone

variable (targetType : LifecycleTargetType) (targetId : String) (businessAsOf knowledgeAsOf : DateTime)

/-- Events of other targets are not compared, and the record time of those not in force yet is not either. -/
def incomparable (event : KnowledgeLifecycleEvent) : Bool :=
  event.targetType = targetType && event.targetId = targetId &&
    (!comparable event.effectiveAt businessAsOf ||
      event.effectiveAt.utc ≤ businessAsOf.utc && !comparable event.recordedAt knowledgeAsOf)

/-- `select_lifecycle_event` with the clocks as they come. -/
def selectLifecycleEventAt (events : List KnowledgeLifecycleEvent) :
    Except LifecycleError (Option KnowledgeLifecycleEvent) :=
  if events.any (incomparable targetType targetId businessAsOf knowledgeAsOf) then .error .typeError
  else .ok (selectLifecycleEvent targetType targetId businessAsOf.utc knowledgeAsOf.utc events)

/-- What comes into force, or is recorded, only after the clocks. -/
def NotYetVisible (event : KnowledgeLifecycleEvent) : Prop :=
  comparable event.effectiveAt businessAsOf = true ∧
    (businessAsOf.utc < event.effectiveAt.utc ∨
      comparable event.recordedAt knowledgeAsOf = true ∧ knowledgeAsOf.utc < event.recordedAt.utc)

end Clocks

section Selection
variable (targetType : LifecycleTargetType) (targetId : String) (businessAsOf knowledgeAsOf : DateTime)
  (events : List KnowledgeLifecycleEvent)

/-- The events of the target that the clocks see. -/
def candidatesAt : List KnowledgeLifecycleEvent :=
  candidatesAsOf targetType targetId businessAsOf.utc knowledgeAsOf.utc events

/-- The selection is up to the events: neither their order nor what is not visible yet has a say in it. -/
structure Replayable : Prop where
  order : ∀ events', events'.Perm events →
    selectLifecycleEventAt targetType targetId businessAsOf knowledgeAsOf events' =
      selectLifecycleEventAt targetType targetId businessAsOf knowledgeAsOf events
  future : ∀ more, (∀ event ∈ more, NotYetVisible businessAsOf knowledgeAsOf event) →
    ∀ events', events'.Perm (events ++ more) →
      selectLifecycleEventAt targetType targetId businessAsOf knowledgeAsOf events' =
        selectLifecycleEventAt targetType targetId businessAsOf knowledgeAsOf events

/-- The clocks can be compared, and two different visible events are the latest. -/
def Tied : Prop :=
  events.any (incomparable targetType targetId businessAsOf knowledgeAsOf) = false ∧
    ∃ a b, a ≠ b ∧ Greatest sortKey (candidatesAt targetType targetId businessAsOf knowledgeAsOf events) a ∧
      Greatest sortKey (candidatesAt targetType targetId businessAsOf knowledgeAsOf events) b

variable {targetType targetId businessAsOf knowledgeAsOf events}

theorem selectLifecycleEventAt_eq :
    selectLifecycleEventAt targetType targetId businessAsOf knowledgeAsOf events =
      if events.any (incomparable targetType targetId businessAsOf knowledgeAsOf) then .error .typeError
      else .ok ((candidatesAt targetType targetId businessAsOf knowledgeAsOf events).argmax sortKey) := rfl

theorem candidatesAt_perm {events' : List KnowledgeLifecycleEvent} (hp : events'.Perm events) :
    (candidatesAt targetType targetId businessAsOf knowledgeAsOf events').Perm
      (candidatesAt targetType targetId businessAsOf knowledgeAsOf events) := hp.filter _

theorem candidatesAt_cons {event : KnowledgeLifecycleEvent} {rest : List KnowledgeLifecycleEvent}
    (h : event ∈ candidatesAt targetType targetId businessAsOf knowledgeAsOf events) :
    candidatesAt targetType targetId businessAsOf knowledgeAsOf (event :: rest) =
      event :: candidatesAt targetType targetId businessAsOf knowledgeAsOf rest := by
  have hvisible := (List.mem_filter.mp h).2
  rw [candidatesAt, candidatesAsOf, List.filter_cons, if_pos hvisible]
  rfl

/-- Events that are not visible yet are compared, and passed over. -/
theorem not_yet_visible {more : List KnowledgeLifecycleEvent}
    (hmore : ∀ event ∈ more, NotYetVisible businessAsOf knowledgeAsOf event) :
    more.any (incomparable targetType targetId businessAsOf knowledgeAsOf) = false ∧
      candidatesAt targetType targetId businessAsOf knowledgeAsOf more = [] := by
  constructor
  · refine List.any_eq_false.mpr fun event hm => ?_
    obtain ⟨heffective, hlater | ⟨hrecorded, _⟩⟩ := hmore event hm
    · simp [incomparable, heffective, not_le.mpr hlater]
    · simp [incomparable, heffective, hrecorded]
  · refine List.filter_eq_nil_iff.mpr fun event hm => ?_
    obtain ⟨_, hlater | ⟨_, hlater⟩⟩ := hmore event hm <;> simp [not_le.mpr hlater]

theorem any_future {more : List KnowledgeLifecycleEvent}
    (hmore : ∀ event ∈ more, NotYetVisible businessAsOf knowledgeAsOf event) :
    (events ++ more).any (incomparable targetType targetId businessAsOf knowledgeAsOf) =
      events.any (incomparable targetType targetId businessAsOf knowledgeAsOf) := by
  rw [List.any_append, (not_yet_visible hmore).1, Bool.or_false]

theorem candidatesAt_future {more : List KnowledgeLifecycleEvent}
    (hmore : ∀ event ∈ more, NotYetVisible businessAsOf knowledgeAsOf event) :
    candidatesAt targetType targetId businessAsOf knowledgeAsOf (events ++ more) =
      candidatesAt targetType targetId businessAsOf knowledgeAsOf events := by
  have happend : candidatesAt targetType targetId businessAsOf knowledgeAsOf (events ++ more) =
      candidatesAt targetType targetId businessAsOf knowledgeAsOf events ++
        candidatesAt targetType targetId businessAsOf knowledgeAsOf more := List.filter_append ..
  rw [happend, (not_yet_visible hmore).2, List.append_nil]

theorem select_perm {events' : List KnowledgeLifecycleEvent} (hp : events'.Perm events)
    (h : ¬ Tied targetType targetId businessAsOf knowledgeAsOf events) :
    selectLifecycleEventAt targetType targetId businessAsOf knowledgeAsOf events' =
      selectLifecycleEventAt targetType targetId businessAsOf knowledgeAsOf events := by
  rw [selectLifecycleEventAt_eq, selectLifecycleEventAt_eq, hp.any_eq]
  cases hany : events.any (incomparable targetType targetId businessAsOf knowledgeAsOf) with
  | true => rfl
  | false =>
    have hone : ∀ a b, Greatest sortKey (candidatesAt targetType targetId businessAsOf knowledgeAsOf events) a →
        Greatest sortKey (candidatesAt targetType targetId businessAsOf knowledgeAsOf events) b → a = b := by
      intro a b ha hb
      by_contra hne
      exact h ⟨hany, a, b, hne, ha, hb⟩
    rw [argmax_perm_iff.mpr hone _ (candidatesAt_perm hp)]

/-- Each of the latest events is selected where it comes first. -/
theorem select_front {event : KnowledgeLifecycleEvent}
    (hany : events.any (incomparable targetType targetId businessAsOf knowledgeAsOf) = false)
    (h : Greatest sortKey (candidatesAt targetType targetId businessAsOf knowledgeAsOf events) event) :
    ∃ events', events'.Perm events ∧
      selectLifecycleEventAt targetType targetId businessAsOf knowledgeAsOf events' = .ok (some event) := by
  have hp := (List.perm_cons_erase (List.mem_of_mem_filter h.1)).symm
  have hgreatest := h.perm (candidatesAt_perm hp)
  rw [candidatesAt_cons h.1] at hgreatest
  refine ⟨event :: events.erase event, hp, ?_⟩
  rw [selectLifecycleEventAt_eq, hp.any_eq, hany, candidatesAt_cons h.1, argmax_cons_greatest hgreatest]
  rfl

/-- A selection can be replayed exactly if no two different events tie for it. -/
theorem selection_replayable_iff (targetType : LifecycleTargetType) (targetId : String)
    (businessAsOf knowledgeAsOf : DateTime) (events : List KnowledgeLifecycleEvent) :
    Replayable targetType targetId businessAsOf knowledgeAsOf events ↔
      ¬ Tied targetType targetId businessAsOf knowledgeAsOf events := by
  constructor
  · rintro hreplay ⟨hany, a, b, hne, ha, hb⟩
    obtain ⟨first, hfirst, hselected⟩ := select_front hany ha
    obtain ⟨second, hsecond, hselected'⟩ := select_front hany hb
    rw [hreplay.order first hfirst] at hselected
    rw [hreplay.order second hsecond, hselected] at hselected'
    exact hne (Option.some.inj (Except.ok.inj hselected'))
  · intro h
    refine ⟨fun events' hp => select_perm hp h, fun more hmore events' hp => ?_⟩
    have hmore' : ¬ Tied targetType targetId businessAsOf knowledgeAsOf (events ++ more) := by
      rw [Tied, any_future hmore, candidatesAt_future hmore]
      exact h
    rw [select_perm hp hmore', selectLifecycleEventAt_eq, selectLifecycleEventAt_eq, any_future hmore,
      candidatesAt_future hmore]

/-- Two events that differ in what they supersede only have one id. -/
def reviewedTwice (supersedes : Option String) : KnowledgeLifecycleEvent where
  targetType := .claim
  targetId := "claim-1"
  toStatus := "ACTIVE"
  effectiveAt := .ofUtc 0
  reasonCode := "REVIEWED"
  policyVersion := "lifecycle.v1"
  lifecycleEventId := "le_1"
  recordedAt := .ofUtc (seconds 60)
  supersedesEventId := supersedes

theorem tied_events_are_not_replayed :
    selectLifecycleEventAt .claim "claim-1" (.ofUtc (seconds 3600)) (.ofUtc (seconds 3600))
        [reviewedTwice none, reviewedTwice (some "le_0")] = .ok (some (reviewedTwice none)) ∧
      selectLifecycleEventAt .claim "claim-1" (.ofUtc (seconds 3600)) (.ofUtc (seconds 3600))
        [reviewedTwice (some "le_0"), reviewedTwice none] = .ok (some (reviewedTwice (some "le_0"))) ∧
      ¬ Replayable .claim "claim-1" (.ofUtc (seconds 3600)) (.ofUtc (seconds 3600))
        [reviewedTwice none, reviewedTwice (some "le_0")] := by
  have hfirst : selectLifecycleEventAt .claim "claim-1" (.ofUtc (seconds 3600)) (.ofUtc (seconds 3600))
      [reviewedTwice none, reviewedTwice (some "le_0")] = .ok (some (reviewedTwice none)) := by decide
  have hsecond : selectLifecycleEventAt .claim "claim-1" (.ofUtc (seconds 3600)) (.ofUtc (seconds 3600))
      [reviewedTwice (some "le_0"), reviewedTwice none] = .ok (some (reviewedTwice (some "le_0"))) := by decide
  refine ⟨hfirst, hsecond, fun hreplay => ?_⟩
  have hsame := hreplay.order _ (.swap _ _ [])
  rw [hfirst, hsecond] at hsame
  exact absurd hsame (by decide)

end Selection
end StockContent.Lifecycle
