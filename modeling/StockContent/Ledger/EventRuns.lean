import StockContent.Ledger.EventRepository

/-! Appends over whole runs: what one append does to a sound ledger, and when the events
of every claim stay one chain. -/
namespace StockContent.Ledger
open Storage Verification

theorem logicalIdentity_of_identity {D : Type} {fields fields' : EventFields DateTime D}
    (h : fields.identity = fields'.identity) : fields.logicalIdentity = fields'.logicalIdentity := by
  rw [EventFields.logicalIdentity, h, EventFields.logicalIdentity]

section Names
variable {D : Type} {digests : EventDigests D} {a b : ClaimStateEvent D}

theorem identity_of_hash (hfree : digests.CollisionFree) (ha : digests.Authentic a) (hb : digests.Authentic b)
    (h : a.eventHash = b.eventHash) : a.identity = b.identity := by
  have hah := congrArg ClaimStateEvent.eventHash ha.signed
  have hbh := congrArg ClaimStateEvent.eventHash hb.signed
  exact hfree.eventHash _ _ _ _ (hah.trans (h.trans hbh.symm))

end Names

section Append
variable {D : Type} [DecidableEq D] {schema : LedgerSchema D} {t : EventTable D} {event : ClaimStateEvent D}

/-- The id of an authentic event is taken only by a row of the same event. -/
theorem Sound.row_of_id (hs : Sound schema t) (hfree : schema.CollisionFree) (ha : schema.Authentic event)
    {row : ClaimStateEventRow D} (hrow : t.get event.eventId = some row) :
    row.event ∈ chain event.claimId t ∧ row.event.identity = event.identity ∧ row.agrees event = true := by
  have hmem : row.event ∈ chain row.claimId t := mem_chain.mpr ⟨row, Table.mem_of_get hrow, rfl, rfl⟩
  have hrowa := (hs.chained row.claimId).authentic _ hmem
  have hid : row.claimStateEventId = event.eventId := Table.get_key hrow
  have hrowid := congrArg ClaimStateEvent.eventId hrowa.signed
  have heventid := congrArg ClaimStateEvent.eventId ha.signed
  have hidentity : row.event.identity = event.identity :=
    hfree.eventId _ _ (hrowid.trans (hid.trans heventid.symm))
  have hclaim : row.claimId = event.claimId := congrArg EventFields.claimId hidentity
  refine ⟨hclaim ▸ hmem, hidentity, ?_⟩
  have hhash : row.eventHash = event.eventHash := by
    have hrowhash := congrArg ClaimStateEvent.eventHash hrowa.signed
    have heventhash := congrArg ClaimStateEvent.eventHash ha.signed
    simp only [EventDigests.sign, hidentity] at hrowhash heventhash
    exact hrowhash.symm.trans heventhash
  have hpayload : (Json.obj row.payload).same (.obj event.payload) = true := by
    have hcanonical := congrArg EventFields.payload hidentity
    exact Json.same_of_canonical (congrArg Json.obj hcanonical)
  have hcolumns : { row.toEventFields with payload := [] } =
      ({ event.toEventFields.mapTimes DateTime.utc with payload := [] } : EventFields Time D) := by
    have hrest := congrArg (fun f : EventFields Time D => { f with payload := [] }) hidentity
    simpa [EventFields.identity, EventFields.mapTimes, ClaimStateEventRow.event, Function.comp_def] using hrest
  simp [ClaimStateEventRow.agrees, hcolumns, hpayload, hhash]

theorem append_unstored (hs : Sound schema t) (ha : schema.Authentic event) (hget : t.get event.eventId = none) :
    appendInSession schema event t =
      match (chain event.claimId t).filter (·.logicalIdentity = event.logicalIdentity) with
      | _ :: _ :: _ => .error (.valueError "claim state event logical identity is ambiguous")
      | [stored] => .ok (t, stored)
      | [] =>
        if (chain event.claimId t).getLast?.any fun tail => event.previousEventHash ≠ some tail.eventHash then
          .error (.valueError "claim state event previous_event_hash does not match chain tail")
        else match store schema event.row t with
          | none => .error .integrityError
          | some t => .ok (t, event) := by
  simp only [appendInSession, schema.reconstruct_eq_ok.mpr ha, hget, hs.listForClaim]
  rfl

/-- An event that is stored up to its place in the chain is not stored again: its first
version is returned. -/
theorem append_retry (hs : Sound schema t) (hfree : schema.CollisionFree) (ha : schema.Authentic event)
    {stored : ClaimStateEvent D} (hm : stored ∈ chain event.claimId t)
    (hl : stored.logicalIdentity = event.logicalIdentity) :
    ∃ returned, appendInSession schema event t = .ok (t, returned) ∧ returned.eventHash = stored.eventHash := by
  have hrec := schema.reconstruct_eq_ok.mpr ha
  cases hget : t.get event.eventId with
  | some row =>
    obtain ⟨hrow, hidentity, hagrees⟩ := hs.row_of_id hfree ha hget
    refine ⟨event, ?_, ?_⟩
    · simp only [appendInSession, hrec, hget, hagrees, if_true]
      rfl
    · have hsame : stored = row.event := by
        refine List.inj_on_of_nodup_map (hs.distinct event.claimId) hm hrow (hl.trans ?_)
        exact logicalIdentity_of_identity hidentity.symm
      simp only [ClaimStateEventRow.agrees, decide_eq_true_eq] at hagrees
      rw [hsame]
      exact hagrees.2.2.symm
  | none =>
    refine ⟨stored, ?_, rfl⟩
    have hmatch := filter_of_nodup_map (hs.distinct event.claimId) hm
    rw [hl] at hmatch
    rw [append_unstored hs ha hget, hmatch]

/-- An event that is not stored goes to the end of its claim's chain or is refused. -/
theorem append_new (hs : Sound schema t) (hfree : schema.CollisionFree) (ha : schema.Authentic event)
    (hl : ∀ stored ∈ chain event.claimId t, stored.logicalIdentity ≠ event.logicalIdentity) :
    appendInSession schema event t =
      if (chain event.claimId t).getLast?.any fun tail => event.previousEventHash ≠ some tail.eventHash then
        .error (.valueError "claim state event previous_event_hash does not match chain tail")
      else match store schema event.row t with
        | none => .error .integrityError
        | some t => .ok (t, event) := by
  have hget : t.get event.eventId = none := by
    cases hget : t.get event.eventId with
    | none => rfl
    | some row =>
      obtain ⟨hrow, hidentity, _⟩ := hs.row_of_id hfree ha hget
      exact absurd (logicalIdentity_of_identity hidentity) (hl _ hrow)
  have hmatch : (chain event.claimId t).filter (·.logicalIdentity = event.logicalIdentity) = [] :=
    List.filter_eq_nil_iff.mpr fun stored hm => by simpa using hl stored hm
  rw [append_unstored hs ha hget, hmatch]

/-- An event that is stored at the end of its claim's chain keeps the ledger sound. -/
theorem Sound.of_store {u : EventTable D} (hs : Sound schema t) (ha : schema.Authentic event)
    (hl : ∀ stored ∈ chain event.claimId t, stored.logicalIdentity ≠ event.logicalIdentity)
    (hprev : event.previousEventHash = (chain event.claimId t).getLast?.map (·.eventHash))
    (hu : store schema event.row t = some u) : Sound schema u := by
  obtain ⟨hadmits, _, hrows⟩ := store_eq_some hu
  have hchain := chain_append hrows
  have hsucc : event.previousEventHash ∉ (chain event.claimId t).map (·.previousEventHash) := by
    intro hm
    obtain ⟨e, he, heq⟩ := List.mem_map.mp hm
    obtain ⟨row, hrow, hclaim, rfl⟩ := mem_chain.mp he
    have hall := List.all_eq_true.mp (Bool.and_eq_true_iff.mp hadmits).2 row hrow
    simp only [ClaimStateEvent.row, EventFields.mapTimes, hclaim, decide_true, Bool.true_and, Bool.not_eq_true'] at hall
    exact of_decide_eq_false hall heq
  refine ⟨fun claimId => ?_, fun claimId => ?_⟩
  · rw [hchain, ClaimStateEvent.row_claimId, row_event ha]
    split
    · rename_i hc
      subst hc
      refine ⟨?_, ?_, ?_⟩
      · rw [Links.linked_append, Links.linked_singleton, Links.tip_eq_getLast?]
        exact ⟨(hs.chained _).linked, hprev⟩
      · simpa [List.nodup_append] using ⟨(hs.chained _).successors, fun e he heq =>
          hsucc (heq ▸ List.mem_map_of_mem he)⟩
      · intro e he
        rcases List.mem_append.mp he with he | he
        · exact (hs.chained _).authentic e he
        · rw [List.mem_singleton.mp he]
          exact ha
    · simpa using hs.chained claimId
  · rw [hchain, ClaimStateEvent.row_claimId, row_event ha]
    split
    · rename_i hc
      subst hc
      rw [List.map_append, List.nodup_append]
      refine ⟨hs.distinct _, by simp, ?_⟩
      intro a hm b hb heq
      obtain ⟨e, he, rfl⟩ := List.mem_map.mp hm
      simp only [List.map_cons, List.map_nil, List.mem_singleton] at hb
      exact hl e he (heq.trans hb)
    · simpa using hs.distinct claimId

/-- The logical identities a claim's chain holds, in append order. -/
def keys (claimId : String) (t : EventTable D) : List (EventFields Time D) :=
  (chain claimId t).map (·.logicalIdentity)

omit [DecidableEq D] in
theorem Sound.hashes (hs : Sound schema t) (hfree : schema.CollisionFree) (claimId : String) :
    ((chain claimId t).map (·.eventHash)).Nodup := by
  refine List.Nodup.map_on (fun a ha b hb h => ?_) (hs.distinct claimId).of_map
  have hauth := (hs.chained claimId).authentic
  exact List.inj_on_of_nodup_map (hs.distinct claimId) ha hb
    (logicalIdentity_of_identity (identity_of_hash hfree (hauth a ha) (hauth b hb) h))

/-- A new event behind the end of its claim's chain violates no constraint of the table. -/
theorem Sound.store_succeeds (hs : Sound schema t) (hfree : schema.CollisionFree) (ha : schema.Authentic event)
    (hl : event.logicalIdentity ∉ keys event.claimId t)
    (hprev : event.previousEventHash = (chain event.claimId t).getLast?.map (·.eventHash))
    (hopen : event.knownTo = none ∧ event.businessValidTo = none) (hfits : schema.fits event.row = true) :
    ∃ u, store schema event.row t = some u := by
  have hstored (row : ClaimStateEventRow D) (hrow : row ∈ t.rows) : row.event ∈ chain row.claimId t :=
    mem_chain.mpr ⟨row, hrow, rfl, rfl⟩
  have hget : t.get event.eventId = none := by
    cases hget : t.get event.eventId with
    | none => rfl
    | some row =>
      obtain ⟨hrow, hidentity, _⟩ := hs.row_of_id hfree ha hget
      exact absurd (List.mem_map.mpr ⟨_, hrow, logicalIdentity_of_identity hidentity⟩) hl
  have hhash : t.rows.all (·.eventHash ≠ event.row.eventHash) = true := by
    refine List.all_eq_true.mpr fun row hrow => decide_eq_true fun heq => hl ?_
    have hauth := (hs.chained row.claimId).authentic _ (hstored row hrow)
    have hidentity := identity_of_hash hfree hauth ha heq
    have hclaim : row.claimId = event.claimId := congrArg EventFields.claimId hidentity
    exact List.mem_map.mpr ⟨_, hclaim ▸ hstored row hrow, logicalIdentity_of_identity hidentity⟩
  have hsucc : (t.rows.all fun r =>
      !(r.claimId = event.row.claimId && r.previousEventHash = event.row.previousEventHash)) = true := by
    have htip := ((hs.chained event.claimId).linked.previous_nodup (hs.hashes hfree event.claimId)).2
    rw [Links.tip_eq_getLast?] at htip
    refine List.all_eq_true.mpr fun row hrow => ?_
    by_cases hc : row.claimId = event.claimId
    · have hne : row.previousEventHash ≠ event.previousEventHash := by
        intro heq
        refine htip (List.mem_map.mpr ⟨row.event, hc ▸ hstored row hrow, ?_⟩)
        exact heq.trans hprev
      simp only [ClaimStateEvent.row_claimId, hc, decide_true, Bool.true_and, Bool.not_eq_true']
      exact decide_eq_false hne
    · simp [hc]
  have hadmits : admits schema event.row t = true := by
    have hk : event.row.knownTo = none := by simp [ClaimStateEvent.row, EventFields.mapTimes, hopen.1]
    have hb : event.row.businessValidTo = none := by simp [ClaimStateEvent.row, EventFields.mapTimes, hopen.2]
    have hbefore (start : Option Time) : before start none = true := by cases start <;> rfl
    simp only [admits, hfits, hk, hb, hbefore, hhash, hsucc, Bool.and_self]
  obtain ⟨u, hu⟩ : ∃ u, t.insert event.row = some u := by
    refine Option.ne_none_iff_exists'.mp fun h => ?_
    exact Table.insert_eq_none.mp h hget
  exact ⟨u, by rw [store, if_pos hadmits, hu]⟩

omit [DecidableEq D] in
theorem sound_empty : Sound schema Table.empty :=
  ⟨fun claimId => by simpa using ⟨trivial, List.nodup_nil, fun _ h => nomatch h⟩, fun claimId => by simp⟩

/-- What an append can do: nothing, or put its event at the end of a chain that it continues. -/
theorem append_cases (hs : Sound schema t) (hfree : schema.CollisionFree) {u : EventTable D}
    {stored : ClaimStateEvent D} (h : appendInSession schema event t = .ok (u, stored)) :
    schema.Authentic event ∧
      ((u = t ∧ ∃ e ∈ chain event.claimId t, e.logicalIdentity = event.logicalIdentity ∧
          stored.eventHash = e.eventHash) ∨
        (stored = event ∧ store schema event.row t = some u ∧
          (∀ e ∈ chain event.claimId t, e.logicalIdentity ≠ event.logicalIdentity) ∧
          ∀ tail, (chain event.claimId t).getLast? = some tail → event.previousEventHash = some tail.eventHash)) := by
  obtain ⟨⟨⟩, hrec, _⟩ := bind_eq_ok.mp h
  have ha := schema.reconstruct_eq_ok.mp hrec
  refine ⟨ha, ?_⟩
  by_cases hl : ∃ e ∈ chain event.claimId t, e.logicalIdentity = event.logicalIdentity
  · obtain ⟨e, hm, he⟩ := hl
    obtain ⟨returned, hret, hhash⟩ := append_retry hs hfree ha hm he
    rw [h] at hret
    cases hret
    exact .inl ⟨rfl, e, hm, he, hhash⟩
  · have hnew : ∀ e ∈ chain event.claimId t, e.logicalIdentity ≠ event.logicalIdentity := fun e hm he => hl ⟨e, hm, he⟩
    rw [append_new hs hfree ha hnew] at h
    split at h
    · cases h
    rename_i htail
    cases hu : store schema event.row t with
    | none =>
      rw [hu] at h
      cases h
    | some v =>
      rw [hu] at h
      cases h
      refine .inr ⟨rfl, rfl, hnew, fun tail ht => ?_⟩
      simpa [ht] using htail

end Append

section Runs
variable {D : Type} [DecidableEq D] (schema : LedgerSchema D)

/-- The events of every claim can be read as one chain after the append; a refused append
changes nothing, an accepted one repeats a stored event or ends its claim's chain. -/
def KeepsChains (t : EventTable D) (event : ClaimStateEvent D) : Prop :=
  let u := (ledger schema).step t event
  (∀ claimId, ∃ events, listForClaim schema claimId u = .ok events) ∧
    match (ledger schema).outcome t event with
    | .error _ => u = t
    | .ok _ =>
      (u = t ∧ ∃ events, listForClaim schema event.claimId t = .ok events ∧
          ∃ stored ∈ events, stored.logicalIdentity = event.logicalIdentity) ∨
        ∀ claimId events, listForClaim schema claimId t = .ok events →
          listForClaim schema claimId u = .ok (events ++ if claimId = event.claimId then [event] else [])

/-- The first event that is stored for a claim names no predecessor. -/
def Rooted (t : EventTable D) (event : ClaimStateEvent D) : Prop :=
  schema.Authentic event → chain event.claimId t = [] → store schema event.row t ≠ none →
    event.previousEventHash = none

variable {schema} {t : EventTable D} {event : ClaimStateEvent D}

theorem Rooted.sound (h : Rooted schema t event) (hs : Sound schema t) (hfree : schema.CollisionFree) :
    Sound schema ((ledger schema).step t event) := by
  change Sound schema (settle t (appendInSession schema event t)).1
  cases hx : appendInSession schema event t with
  | error e => exact hs
  | ok p =>
    obtain ⟨u, stored⟩ := p
    obtain ⟨ha, hcases⟩ := append_cases hs hfree hx
    rcases hcases with ⟨rfl, _⟩ | ⟨_, hu, hnew, htail⟩
    · exact hs
    · refine hs.of_store ha hnew ?_ hu
      cases hlast : (chain event.claimId t).getLast? with
      | none => exact h ha (List.getLast?_eq_none_iff.mp hlast) (by simp [hu])
      | some tail => exact htail tail hlast

theorem keepsChains_iff_rooted (hs : Sound schema t) (hfree : schema.CollisionFree) :
    KeepsChains schema t event ↔ Rooted schema t event := by
  constructor
  · rintro ⟨hread, _⟩ ha hnil hstore
    obtain ⟨u, hu⟩ := Option.ne_none_iff_exists'.mp hstore
    have hstep : (ledger schema).step t event = u := by
      have hx := append_new hs hfree ha (by simp [hnil])
      simp only [hnil, hu, List.getLast?_nil, Option.any_none, Bool.false_eq_true, if_false] at hx
      change (settle t (appendInSession schema event t)).1 = u
      rw [hx]
      rfl
    obtain ⟨events, hevents⟩ := hread event.claimId
    obtain ⟨hp, hc⟩ := listForClaim_eq_ok.mp hevents
    rw [hstep, chain_append (store_eq_some hu).2.2, hnil, ClaimStateEvent.row_claimId, if_pos rfl, row_event ha,
      List.nil_append] at hp
    rw [← List.singleton_perm.mp hp] at hc
    exact (Links.linked_singleton _ _ _).mp hc.linked
  · intro h
    have hread := (h.sound hs hfree).listForClaim
    refine ⟨fun claimId => ⟨_, hread claimId⟩, ?_⟩
    have hlist := hs.listForClaim
    simp only [Machine.outcome, Machine.step, ledger, append] at hread ⊢
    cases hx : appendInSession schema event t with
    | error e => rfl
    | ok p =>
      obtain ⟨u, stored⟩ := p
      rw [hx] at hread
      simp only [settle_ok] at hread ⊢
      obtain ⟨ha, ⟨rfl, e, hm, he, _⟩ | ⟨rfl, hu, _⟩⟩ := append_cases hs hfree hx
      · exact .inl ⟨rfl, _, hlist _, e, hm, he⟩
      · refine .inr fun claimId events hevents => ?_
        rw [hlist] at hevents
        cases hevents
        rw [hread claimId, chain_append (store_eq_some hu).2.2, ClaimStateEvent.row_claimId, row_event ha]
        simp only [eq_comm]

/-- The stored events of every claim stay one chain as long as the first event of each
claim names no predecessor, and not beyond. -/
theorem appends_keep_chains_iff (hfree : schema.CollisionFree) (events : List (ClaimStateEvent D)) :
    (ledger schema).Along (KeepsChains schema) Table.empty events ↔
      (ledger schema).Along (Rooted schema) Table.empty events :=
  (ledger schema).along_congr (I := Sound schema)
    (fun _ _ hs hk => ((keepsChains_iff_rooted hs hfree).mp hk).sound hs hfree)
    (fun _ _ hs => keepsChains_iff_rooted hs hfree) sound_empty events

end Runs

section Plain

/-- A ledger whose digests are the text they are taken of. -/
def plainSchema : LedgerSchema Json := { plainDigests with fits := fun _ => true }

theorem plainSchema_collisionFree : plainSchema.CollisionFree := plainDigests_collisionFree

/-- A lifecycle event that names a predecessor, for a claim without events. -/
def strayEvent : ClaimStateEvent Json := plainSchema.sign
  { claimId := "claim-1"
    eventType := "LIFECYCLE"
    payload := [("status", .str "ACTIVE"), ("artifact_id", .str "le_1")]
    knownFrom := some (.ofUtc 0)
    sourceAvailableFrom := some (.ofUtc 0)
    previousEventHash := some (.str "e3b0c442") }

theorem stray_event_breaks_chain : ¬ (ledger plainSchema).Along (KeepsChains plainSchema) Table.empty [strayEvent] := by
  intro h
  obtain ⟨events, hevents⟩ := h.1.1 "claim-1"
  have hread : listForClaim plainSchema "claim-1" ((ledger plainSchema).step Table.empty strayEvent) =
      .error (.valueError "claim state event chain is broken or has an unreachable event") := by decide
  rw [hread] at hevents
  cases hevents

theorem appends_keep_chains_plain :
    (ledger plainSchema).Along (KeepsChains plainSchema) Table.empty [strayEvent, strayEvent] ↔
      (ledger plainSchema).Along (Rooted plainSchema) Table.empty [strayEvent, strayEvent] :=
  appends_keep_chains_iff plainSchema_collisionFree _

end Plain
end StockContent.Ledger
