import StockContent.Knowledge.KnowledgeRepository

/-! What knowledge reads return: the first eligible rows of all candidates, each of which
passes every filter that was given. -/
namespace StockContent.Knowledge
open Storage Verification Lifecycle Ledger

section Tests
variable {E A : Type}

/-- A test that ended with a yes. -/
def accepts (result : Except E Bool) : Bool := result.toOption.getD false

theorem accepts_iff {result : Except E Bool} : accepts result = true ↔ result = .ok true := by
  cases result with
  | error e => simp [accepts, Except.toOption]
  | ok b => simp [accepts, Except.toOption]

/-- No test raises on any of the items. -/
def Readable (test : A → Except E Bool) (xs : List A) : Prop := ∀ x ∈ xs, ∃ b, test x = .ok b

theorem filterE_eq_ok {test : A → Except E Bool} {xs ys : List A} :
    filterE test xs = .ok ys ↔ Readable test xs ∧ ys = xs.filter fun x => accepts (test x) := by
  induction xs generalizing ys with
  | nil => simp [filterE, Readable, eq_comm]
  | cons x xs ih =>
    rw [filterE, Readable, List.forall_mem_cons, List.filter_cons]
    cases htest : test x with
    | error e =>
      refine iff_of_false ?_ ?_
      · intro h
        cases h
      · rintro ⟨⟨⟨b, hb⟩, _⟩, _⟩
        cases hb
    | ok keep =>
      have haccepts : accepts (.ok keep : Except E Bool) = keep := rfl
      rw [ok_bind, bind_eq_ok, haccepts]
      constructor
      · rintro ⟨rest, hrest, hys⟩
        obtain ⟨hread, rfl⟩ := ih.mp hrest
        cases hys
        exact ⟨⟨⟨keep, rfl⟩, hread⟩, rfl⟩
      · rintro ⟨⟨_, hread⟩, rfl⟩
        exact ⟨_, ih.mpr ⟨hread, rfl⟩, rfl⟩

theorem mem_filterE {test : A → Except E Bool} {xs ys : List A} (h : filterE test xs = .ok ys) {y : A} :
    y ∈ ys ↔ y ∈ xs ∧ test y = .ok true := by
  obtain ⟨_, rfl⟩ := filterE_eq_ok.mp h
  rw [List.mem_filter, accepts_iff]

@[simp] theorem both_eq_ok {test next : Except E Bool} :
    both test next = .ok true ↔ test = .ok true ∧ next = .ok true := by
  cases test with
  | error e => exact iff_of_false (fun h => by cases h) (fun h => by cases h.1)
  | ok b =>
    cases b with
    | false => exact iff_of_false (fun h => by cases h) (fun h => by cases h.1)
    | true => exact ⟨fun h => ⟨rfl, h⟩, fun h => h.2⟩

end Tests

section Each
variable (texts : ReadTexts)

/-- Each filter on the projected attributes, taken alone. -/
structure PassesEach (filters : KnowledgeFilters) (row : KnowledgeUnitRow) : Prop where
  availability : pitMatches texts { availabilityAsOf := filters.availabilityAsOf } row = .ok true
  mode : pitMatches texts { pitMode := filters.pitMode, availabilityMode := filters.availabilityMode } row = .ok true
  role : pitMatches texts { temporalRole := filters.temporalRole } row = .ok true
  range : (asked filters.targetStart.join || asked filters.targetEnd.join) = true →
    ∃ bindings, itemsOf (Json.lookup row.attributes "temporal_bindings") = .ok bindings ∧ ∃ binding ∈ bindings,
      bindingOverlaps texts filters.targetStart.join filters.targetEnd.join binding = .ok true
  segment : pitMatches texts { semanticSegmentId := filters.semanticSegmentId } row = .ok true
  clocks : pitMatches texts
    { businessAsOf := filters.businessAsOf
      knowledgeAsOf := filters.knowledgeAsOf
      historicalProjection := filters.historicalProjection } row = .ok true

variable {texts} {filters : KnowledgeFilters} {row : KnowledgeUnitRow}

theorem pitMatches_iff : pitMatches texts filters row = .ok true ↔ ∃ mode, pitMode texts filters = .ok mode ∧
    qualityMatches texts mode row = true ∧
    availabilityMatches texts mode filters.availabilityAsOf.join row = .ok true ∧
    temporalMatches texts filters.temporalRole.join filters.targetStart.join filters.targetEnd.join row = .ok true ∧
    segmentMatches texts filters.semanticSegmentId.join row = true ∧
    clocksMatch texts filters.businessAsOf.join filters.knowledgeAsOf.join filters.historicalProjection row =
      .ok true := by
  simp only [pitMatches, bind_eq_ok, both_eq_ok, Except.ok.injEq]

theorem pitMode_system (h : filters.pitMode.join = none) (h' : filters.availabilityMode.join = none) :
    pitMode texts filters = .ok .system := by
  simp [pitMode, h, h', texts.upper_system, pitModeOf]

theorem availabilityMatches_system {mode : PitMode} {asOf : Option DateTime}
    (h : availabilityMatches texts mode asOf row = .ok true) : availabilityMatches texts .system asOf row = .ok true := by
  cases asOf with
  | none => rfl
  | some asOf =>
    obtain ⟨asOfText, htext, h⟩ := bind_eq_ok.mp h
    refine bind_eq_ok.mpr ⟨asOfText, htext, ?_⟩
    split
    · rename_i hlate
      rw [if_pos hlate] at h
      cases h
    · rfl

/-- The bindings are read before any filter asks for them. -/
theorem temporalMatches_bindings {role targetStart targetEnd : Option String}
    (h : temporalMatches texts role targetStart targetEnd row = .ok true) :
    ∃ bindings, itemsOf (Json.lookup row.attributes "temporal_bindings") = .ok bindings := by
  obtain ⟨bindings, hbindings, _⟩ := bind_eq_ok.mp h
  exact ⟨bindings, hbindings⟩

theorem temporalMatches_none {bindings : List Json}
    (h : itemsOf (Json.lookup row.attributes "temporal_bindings") = .ok bindings) :
    temporalMatches texts none none none row = .ok true := by
  rw [temporalMatches, h]
  rfl

/-- A row whose bindings were asked for keeps one of them, which has the role and the range. -/
theorem temporalMatches_binding {role targetStart targetEnd : Option String}
    (h : temporalMatches texts role targetStart targetEnd row = .ok true)
    (hasked : (asked role || asked targetStart || asked targetEnd) = true) :
    ∃ bindings, itemsOf (Json.lookup row.attributes "temporal_bindings") = .ok bindings ∧
      (asked role = true → ∃ kept, filterE (hasRole texts (role.getD "")) bindings = .ok kept) ∧
      ∃ binding ∈ bindings, (asked role = true → hasRole texts (role.getD "") binding = .ok true) ∧
        ((asked targetStart || asked targetEnd) = true →
          bindingOverlaps texts targetStart targetEnd binding = .ok true) := by
  obtain ⟨bindings, hbindings, h⟩ := bind_eq_ok.mp h
  rw [if_pos hasked] at h
  cases hcandidates : temporalCandidates texts role targetStart targetEnd bindings with
  | error e =>
    rw [hcandidates] at h
    cases h
  | ok candidates =>
    rw [hcandidates] at h
    cases candidates with
    | nil => cases h
    | cons binding candidates =>
      obtain ⟨ofRole, hrole, hrange⟩ := bind_eq_ok.mp hcandidates
      have hinRole : binding ∈ ofRole ∧ ((asked targetStart || asked targetEnd) = true →
          bindingOverlaps texts targetStart targetEnd binding = .ok true) := by
        split at hrange
        · obtain ⟨hmem, hoverlaps⟩ := (mem_filterE hrange).mp List.mem_cons_self
          exact ⟨hmem, fun _ => hoverlaps⟩
        · rename_i hnotAsked
          cases hrange
          exact ⟨List.mem_cons_self, fun h => absurd h hnotAsked⟩
      rw [roleCandidates] at hrole
      refine ⟨bindings, hbindings, ?_, binding, ?_, ?_, hinRole.2⟩
      · intro hask
        exact ⟨ofRole, by rwa [if_pos hask] at hrole⟩
      · split at hrole
        · exact ((mem_filterE hrole).mp hinRole.1).1
        · cases hrole
          exact hinRole.1
      · intro hask
        rw [if_pos hask] at hrole
        exact ((mem_filterE hrole).mp hinRole.1).2

theorem temporalMatches_role {role targetStart targetEnd : Option String}
    (h : temporalMatches texts role targetStart targetEnd row = .ok true) :
    temporalMatches texts role none none row = .ok true := by
  cases hrole : asked role with
  | false =>
    obtain ⟨bindings, hbindings⟩ := temporalMatches_bindings h
    rw [temporalMatches, hbindings, ok_bind, hrole]
    rfl
  | true =>
    obtain ⟨bindings, hbindings, hkept, binding, hmem, hhas, _⟩ := temporalMatches_binding h (by simp [hrole])
    obtain ⟨kept, hkept⟩ := hkept hrole
    have hin : binding ∈ kept := (mem_filterE hkept).mpr ⟨hmem, hhas hrole⟩
    have hcandidates : temporalCandidates texts role none none bindings = .ok kept := by
      rw [temporalCandidates, roleCandidates, if_pos hrole, hkept]
      rfl
    rw [temporalMatches, hbindings, ok_bind, if_pos (by simp [hrole]), hcandidates]
    cases kept with
    | nil => cases hin
    | cons _ _ => rfl

theorem temporalMatches_range {role targetStart targetEnd : Option String}
    (h : temporalMatches texts role targetStart targetEnd row = .ok true)
    (hasked : (asked targetStart || asked targetEnd) = true) :
    ∃ bindings, itemsOf (Json.lookup row.attributes "temporal_bindings") = .ok bindings ∧
      ∃ binding ∈ bindings, bindingOverlaps texts targetStart targetEnd binding = .ok true := by
  obtain ⟨bindings, hbindings, _, binding, hmem, _, hoverlaps⟩ :=
    temporalMatches_binding h (by rw [Bool.or_assoc, hasked, Bool.or_true])
  exact ⟨bindings, hbindings, binding, hmem, hoverlaps hasked⟩

/-- Rows that pass the filters together pass each of them. -/
theorem passesEach (h : pitMatches texts filters row = .ok true) : PassesEach texts filters row := by
  obtain ⟨mode, hmode, hquality, havailability, htemporal, hsegment, hclocks⟩ := pitMatches_iff.mp h
  obtain ⟨bindings, hbindings⟩ := temporalMatches_bindings htemporal
  have hnone : temporalMatches texts none none none row = .ok true := temporalMatches_none hbindings
  have hsystem (alone : KnowledgeFilters) (h : alone.pitMode = none) (h' : alone.availabilityMode = none) :
      pitMode texts alone = .ok .system := pitMode_system (by simp [h]) (by simp [h'])
  constructor
  · exact pitMatches_iff.mpr ⟨.system, hsystem _ rfl rfl, rfl, availabilityMatches_system havailability, hnone, rfl, rfl⟩
  · exact pitMatches_iff.mpr ⟨mode, hmode, hquality, rfl, hnone, rfl, rfl⟩
  · exact pitMatches_iff.mpr ⟨.system, hsystem _ rfl rfl, rfl, rfl, temporalMatches_role htemporal, rfl, rfl⟩
  · exact temporalMatches_range htemporal
  · exact pitMatches_iff.mpr ⟨.system, hsystem _ rfl rfl, rfl, rfl, hnone, hsegment, rfl⟩
  · exact pitMatches_iff.mpr ⟨.system, hsystem _ rfl rfl, rfl, rfl, hnone, rfl, hclocks⟩

end Each

section Selected
variable (texts : ReadTexts) (ilike : String → String → Bool) (query : String) (filters : KnowledgeFilters)
  (db : KnowledgeDb)

/-- The rows that pass a test, in their order, as far as the limit goes. -/
def firstEligible {E A : Type} (test : A → Except E Bool) (limit : Nat) (rows : List A) : List A :=
  (rows.filter fun row => accepts (test row)).take limit

/-- Every row that a search asks the database for. -/
def searchRows : List KnowledgeUnitRow := db.units.select (queried ilike query filters) byConfidence db.units.rows.length

def hydrateRows (knowledgeUids : List String) : List KnowledgeUnitRow :=
  knowledgeUids.filterMap fun uid => (db.units.get uid).filter (applyFilters filters)

/-- Every row of a video that was available by then. -/
def listedRows (videoId : String) (asOf : DateTime) : List KnowledgeUnitRow :=
  db.units.select (fun row => row.videoId = videoId && row.availableFrom ≤ asOf.utc) byAvailability db.units.rows.length

/-- A row that a read with these filters may return: its columns, its projected attributes and
the ledger each pass. -/
structure Honours (row : KnowledgeUnitRow) : Prop where
  stored : row ∈ db.units.rows
  columns : applyFilters filters row = true
  each : PassesEach texts filters row
  ledger : lifecycleMatches texts db.ledger filters row = true

variable {texts ilike query filters db}

theorem rowMatches_iff {row : KnowledgeUnitRow} : rowMatches texts db.ledger filters row = .ok true ↔
    pitMatches texts filters row = .ok true ∧ lifecycleMatches texts db.ledger filters row = true := by
  simp only [rowMatches, both_eq_ok, Except.ok.injEq]

theorem honours_of_rowMatches {row : KnowledgeUnitRow} (hstored : row ∈ db.units.rows)
    (hcolumns : applyFilters filters row = true) (h : rowMatches texts db.ledger filters row = .ok true) :
    Honours texts filters db row := by
  obtain ⟨hpit, hledger⟩ := rowMatches_iff.mp h
  exact ⟨hstored, hcolumns, passesEach hpit, hledger⟩

theorem search_eq_ok {limit : Nat} {found : List KnowledgePayload} (hpost : postFilter filters = true) :
    search texts ilike query filters limit db = .ok found ↔
      Readable (rowMatches texts db.ledger filters) (searchRows ilike query filters db) ∧
      found = (firstEligible (rowMatches texts db.ledger filters) limit (searchRows ilike query filters db)).map payload := by
  simp only [search, hpost, if_true, bind_eq_ok, filterE_eq_ok]
  constructor
  · rintro ⟨kept, ⟨hread, rfl⟩, hfound⟩
    cases hfound
    exact ⟨hread, rfl⟩
  · rintro ⟨hread, rfl⟩
    exact ⟨_, ⟨hread, rfl⟩, rfl⟩

/-- Without such a filter the limit is a limit on the rows that are tested. -/
theorem search_plain_eq_ok {limit : Nat} {found : List KnowledgePayload} (hpost : postFilter filters = false) :
    search texts ilike query filters limit db = .ok found ↔
      Readable (rowMatches texts db.ledger filters) ((searchRows ilike query filters db).take limit) ∧
      found = (((searchRows ilike query filters db).take limit).filter
        fun row => accepts (rowMatches texts db.ledger filters row)).map payload := by
  have hselect : db.units.select (queried ilike query filters) byConfidence limit =
      (searchRows ilike query filters db).take limit := by
    have hlen := List.length_filter_le (queried ilike query filters) db.units.rows
    rw [searchRows, Table.select, Table.select, List.take_of_length_le (i := db.units.rows.length)]
    rwa [List.length_insertionSort]
  simp only [search, hpost, Bool.false_eq_true, if_false, hselect, bind_eq_ok, filterE_eq_ok]
  have hfew (kept : List KnowledgeUnitRow) (test : KnowledgeUnitRow → Bool)
      (h : kept = ((searchRows ilike query filters db).take limit).filter test) : kept.take limit = kept := by
    refine List.take_of_length_le ?_
    rw [h]
    exact (List.length_filter_le _ _).trans (List.length_take_le _ _)
  constructor
  · rintro ⟨kept, ⟨hread, hkept⟩, hfound⟩
    cases hfound
    rw [hfew kept _ hkept, hkept]
    exact ⟨hread, rfl⟩
  · rintro ⟨hread, rfl⟩
    refine ⟨_, ⟨hread, rfl⟩, ?_⟩
    rw [hfew _ _ rfl]
    rfl

/-- With or without such a filter, what a search returns honours all of them. -/
theorem search_honours {limit : Nat} {found : List KnowledgePayload}
    (h : search texts ilike query filters limit db = .ok found) {item : KnowledgePayload} (hitem : item ∈ found) :
    ∃ row, Honours texts filters db row ∧ item = payload row := by
  obtain ⟨kept, hkept, hfound⟩ := bind_eq_ok.mp h
  cases hfound
  obtain ⟨row, hrow, rfl⟩ := List.mem_map.mp hitem
  obtain ⟨hselected, hmatches⟩ := (mem_filterE hkept).mp (List.mem_of_mem_take hrow)
  obtain ⟨hstored, hqueried⟩ := Table.mem_select hselected
  simp only [queried, Bool.and_eq_true] at hqueried
  exact ⟨row, honours_of_rowMatches hstored hqueried.1.2 hmatches, rfl⟩

theorem hydrate_eq_ok {knowledgeUids : List String} {found : List KnowledgePayload} :
    hydrate texts knowledgeUids filters db = .ok found ↔
      Readable (rowMatches texts db.ledger filters) (hydrateRows filters db knowledgeUids) ∧
      found = ((hydrateRows filters db knowledgeUids).filter
        fun row => accepts (rowMatches texts db.ledger filters row)).map payload := by
  simp only [hydrate, bind_eq_ok, filterE_eq_ok]
  constructor
  · rintro ⟨kept, ⟨hread, rfl⟩, hfound⟩
    cases hfound
    exact ⟨hread, rfl⟩
  · rintro ⟨hread, rfl⟩
    exact ⟨_, ⟨hread, rfl⟩, rfl⟩

theorem hydrate_honours {knowledgeUids : List String} {found : List KnowledgePayload}
    (h : hydrate texts knowledgeUids filters db = .ok found) {item : KnowledgePayload} (hitem : item ∈ found) :
    ∃ row, Honours texts filters db row ∧ item = payload row := by
  obtain ⟨_, rfl⟩ := hydrate_eq_ok.mp h
  obtain ⟨row, hrow, rfl⟩ := List.mem_map.mp hitem
  obtain ⟨hrow, hmatches⟩ := List.mem_filter.mp hrow
  obtain ⟨uid, _, hget⟩ := List.mem_filterMap.mp hrow
  obtain ⟨hget, hcolumns⟩ := Option.filter_eq_some_iff.mp hget
  exact ⟨row, honours_of_rowMatches (Table.mem_of_get hget) hcolumns (accepts_iff.mp hmatches), rfl⟩

variable {videoId mode : String} {asOf : DateTime} {limit : Nat} {role segment : Option String}

/-- The payload of a listing also shows the quality that its mode was tested against. -/
def listed (texts : ReadTexts) (row : KnowledgeUnitRow) : KnowledgePayload :=
  { payload row with sourceAvailabilityQuality := some (quality texts row.attributes) }

theorem listForVideoAsOf_eq_ok {found : List KnowledgePayload} :
    listForVideoAsOf texts videoId asOf limit mode role segment db = .ok found ↔
      (pitModeOf (texts.upper mode)).isSome ∧
      Readable (pitMatches texts (listFilters asOf (texts.upper mode) role segment)) (listedRows db videoId asOf) ∧
      found = (firstEligible (pitMatches texts (listFilters asOf (texts.upper mode) role segment)) limit
        (listedRows db videoId asOf)).map (listed texts) := by
  cases hmode : pitModeOf (texts.upper mode) with
  | none =>
    simp only [listForVideoAsOf, hmode, if_true]
    refine iff_of_false (fun h => ?_) (fun h => ?_)
    · cases h
    · cases h.1
  | some known =>
    simp only [listForVideoAsOf, hmode, reduceCtorEq, if_false, bind_eq_ok, filterE_eq_ok, Option.isSome_some, true_and]
    constructor
    · rintro ⟨kept, ⟨hread, rfl⟩, hfound⟩
      cases hfound
      exact ⟨hread, List.map_take.symm⟩
    · rintro ⟨hread, rfl⟩
      exact ⟨_, ⟨hread, rfl⟩, congrArg Except.ok List.map_take.symm⟩

theorem listForVideoAsOf_honours {found : List KnowledgePayload}
    (h : listForVideoAsOf texts videoId asOf limit mode role segment db = .ok found) {item : KnowledgePayload}
    (hitem : item ∈ found) : ∃ row ∈ db.units.rows, row.videoId = videoId ∧ row.availableFrom ≤ asOf.utc ∧
      PassesEach texts (listFilters asOf (texts.upper mode) role segment) row ∧ item = listed texts row := by
  obtain ⟨_, _, rfl⟩ := listForVideoAsOf_eq_ok.mp h
  obtain ⟨row, hrow, rfl⟩ := List.mem_map.mp hitem
  obtain ⟨hrow, hmatches⟩ := List.mem_filter.mp (List.mem_of_mem_take hrow)
  obtain ⟨hstored, hselected⟩ := Table.mem_select hrow
  simp only [Bool.and_eq_true, decide_eq_true_eq] at hselected
  exact ⟨row, hstored, hselected.1, hselected.2, passesEach (accepts_iff.mp hmatches), rfl⟩

/-- A limit that is not reached cut nothing off. -/
theorem mem_firstEligible {E A : Type} {test : A → Except E Bool} {rows : List A} {limit : Nat}
    (h : (firstEligible test limit rows).length < limit) {row : A} :
    row ∈ firstEligible test limit rows ↔ row ∈ rows ∧ test row = .ok true := by
  have hshort : (rows.filter fun row => accepts (test row)).length ≤ limit := by
    rw [firstEligible, List.length_take] at h
    omega
  rw [firstEligible, List.take_of_length_le hshort, List.mem_filter, accepts_iff]

end Selected

section Index
variable {texts : ReadTexts} {limit : Nat} {filters : KnowledgeFilters} {db : KnowledgeDb}

theorem mem_fillShortfall {fallback hydrated : List KnowledgePayload} {item : KnowledgePayload}
    (h : item ∈ fillShortfall limit hydrated fallback) : item ∈ hydrated ∨ item ∈ fallback := by
  induction fallback generalizing hydrated with
  | nil => exact .inl h
  | cons next fallback ih =>
    rw [fillShortfall] at h
    have hcons (h : item ∈ hydrated ++ [next]) : item ∈ hydrated ∨ item ∈ next :: fallback := by
      rw [List.mem_append, List.mem_singleton] at h
      refine h.imp_right ?_
      rintro rfl
      exact List.mem_cons_self
    split at h
    · exact (ih h).imp_right (List.mem_cons_of_mem _)
    · split at h
      · exact hcons h
      · rcases ih h with h | h
        · exact hcons h
        · exact .inr (List.mem_cons_of_mem _ h)

theorem subset_fillShortfall {fallback hydrated : List KnowledgePayload} :
    hydrated ⊆ fillShortfall limit hydrated fallback := by
  induction fallback generalizing hydrated with
  | nil => exact List.Subset.refl _
  | cons next fallback ih =>
    rw [fillShortfall]
    split
    · exact ih
    · split
      · exact List.subset_append_left _ _
      · exact List.Subset.trans (List.subset_append_left _ _) ih

/-- The fill stops early only at the limit. -/
theorem fillShortfall_complete {fallback hydrated : List KnowledgePayload}
    (h : (fillShortfall limit hydrated fallback).length < limit) {item : KnowledgePayload} (hitem : item ∈ fallback) :
    ∃ shown ∈ fillShortfall limit hydrated fallback, shown.knowledgeUid = item.knowledgeUid := by
  induction fallback generalizing hydrated with
  | nil => cases hitem
  | cons next fallback ih =>
    rw [fillShortfall] at h ⊢
    split at h
    · rename_i hseen
      rw [if_pos hseen]
      rcases List.mem_cons.mp hitem with rfl | hitem
      · obtain ⟨shown, hshown, huid⟩ := List.any_eq_true.mp hseen
        exact ⟨shown, subset_fillShortfall hshown, of_decide_eq_true huid⟩
      · exact ih h hitem
    · rename_i hnew
      rw [if_neg hnew]
      split at h
      · rename_i hfull
        rw [List.length_append, List.length_singleton] at h
        omega
      · rename_i hroom
        rw [if_neg hroom]
        rcases List.mem_cons.mp hitem with rfl | hitem
        · exact ⟨item, subset_fillShortfall (List.mem_append_right _ List.mem_cons_self), rfl⟩
        · exact ih h hitem

theorem length_fillShortfall {fallback hydrated : List KnowledgePayload} (h : hydrated.length < limit) :
    (fillShortfall limit hydrated fallback).length ≤ limit := by
  induction fallback generalizing hydrated with
  | nil => exact h.le
  | cons next fallback ih =>
    rw [fillShortfall]
    split
    · exact ih h
    · split
      · rw [List.length_append, List.length_singleton]
        omega
      · refine ih ?_
        rw [List.length_append, List.length_singleton]
        omega

/-- Some mode is always tested. -/
theorem postFilter_effectiveFilters (defaultMode : String) (arguments : SearchArguments) (filters : KnowledgeFilters) :
    postFilter (effectiveFilters defaultMode arguments filters) = true := by
  have hmode : (effectiveFilters defaultMode arguments filters).pitMode.isSome = true := by
    cases harguments : arguments.pitMode <;> cases hfilters : filters.pitMode <;>
      simp [effectiveFilters, harguments, hfilters]
  simp [postFilter, hmode]

variable (texts filters db) in
/-- An answer within the limit that leaves no eligible row of the query out as long as there is room. -/
structure Fills (ilike : String → String → Bool) (query : String) (limit : Nat) (found : List KnowledgePayload) :
    Prop where
  bounded : found.length ≤ limit
  honours : ∀ item ∈ found, ∃ row, Honours texts filters db row ∧ item = payload row
  complete : found.length < limit → ∀ row ∈ searchRows ilike query filters db,
    rowMatches texts db.ledger filters row = .ok true → payload row ∈ found

variable {ilike : String → String → Bool} {query : String} {found : List KnowledgePayload}

theorem fills_search (hpost : postFilter filters = true) (h : search texts ilike query filters limit db = .ok found) :
    Fills texts filters db ilike query limit found := by
  refine ⟨?_, fun item hitem => search_honours h hitem, ?_⟩
  · rw [((search_eq_ok hpost).mp h).2, List.length_map]
    exact List.length_take_le _ _
  · obtain ⟨_, rfl⟩ := (search_eq_ok hpost).mp h
    intro hshort row hrow hmatches
    rw [List.length_map] at hshort
    exact List.mem_map_of_mem ((mem_firstEligible hshort).mpr ⟨hrow, hmatches⟩)

theorem nodup_search (hpost : postFilter filters = true) (h : search texts ilike query filters limit db = .ok found) :
    found.Nodup := by
  obtain ⟨_, rfl⟩ := (search_eq_ok hpost).mp h
  have huids := Table.nodup_select db.units (queried ilike query filters) byConfidence db.units.rows.length
  have hkept := huids.of_map.sublist ((List.take_sublist limit _).trans
    (List.filter_sublist (p := fun row => accepts (rowMatches texts db.ledger filters row))))
  refine hkept.map ?_
  intro a b hpayload
  exact congrArg KnowledgePayload.toKnowledgeUnitRow hpayload

/-- The index and the relational rows are of the same table, so that one uid is one row. -/
theorem fills_fillShortfall {hydrated fallback : List KnowledgePayload} (hroom : hydrated.length < limit)
    (hnodup : fallback.Nodup) (hhydrated : ∀ item ∈ hydrated, ∃ row, Honours texts filters db row ∧ item = payload row)
    (hfallback : Fills texts filters db ilike query limit fallback) :
    Fills texts filters db ilike query limit (fillShortfall limit hydrated fallback) := by
  have hhonours : ∀ item ∈ fillShortfall limit hydrated fallback,
      ∃ row, Honours texts filters db row ∧ item = payload row := by
    intro item hitem
    rcases mem_fillShortfall hitem with hitem | hitem
    · exact hhydrated item hitem
    · exact hfallback.honours item hitem
  refine ⟨length_fillShortfall hroom, hhonours, ?_⟩
  intro hshort row hrow hmatches
  have hshown : ∀ item ∈ fallback, item ∈ fillShortfall limit hydrated fallback := by
    intro item hitem
    obtain ⟨shown, hshown, huid⟩ := fillShortfall_complete hshort hitem
    obtain ⟨row, hrow, rfl⟩ := hfallback.honours item hitem
    obtain ⟨other, hother, rfl⟩ := hhonours shown hshown
    obtain rfl : other = row := List.inj_on_of_nodup_map db.units.unique hother.stored hrow.stored huid
    exact hshown
  have hfew : fallback.length < limit := by
    have hle := (List.subperm_of_subset hnodup fun item hitem => hshown item hitem).length_le
    omega
  exact hshown _ (hfallback.complete hfew row hrow hmatches)

end Index

section Results
variable (texts : ReadTexts)

/-- Every read returns rows that honour each of its filters, and a search with a filter that is
tested in memory, like a listing, returns the first of all rows that do. -/
theorem reads_honour_filters (ilike : String → String → Bool) (db : KnowledgeDb) (filters : KnowledgeFilters)
    (limit : Nat) (found : List KnowledgePayload) :
    (∀ query, search texts ilike query filters limit db = .ok found →
      (∀ item ∈ found, ∃ row, Honours texts filters db row ∧ item = payload row) ∧
      (postFilter filters = true → found = (firstEligible (rowMatches texts db.ledger filters) limit
        (searchRows ilike query filters db)).map payload)) ∧
    (∀ knowledgeUids, hydrate texts knowledgeUids filters db = .ok found →
      (∀ item ∈ found, ∃ row, Honours texts filters db row ∧ item = payload row) ∧
      found = ((hydrateRows filters db knowledgeUids).filter
        fun row => accepts (rowMatches texts db.ledger filters row)).map payload) ∧
    ∀ videoId asOf mode role segment,
      listForVideoAsOf texts videoId asOf limit mode role segment db = .ok found →
      (∀ item ∈ found, ∃ row ∈ db.units.rows, row.videoId = videoId ∧ row.availableFrom ≤ asOf.utc ∧
        PassesEach texts (listFilters asOf (texts.upper mode) role segment) row ∧ item = listed texts row) ∧
      found = (firstEligible (pitMatches texts (listFilters asOf (texts.upper mode) role segment)) limit
        (listedRows db videoId asOf)).map (listed texts) := by
  refine ⟨?_, ?_, ?_⟩
  · intro query h
    exact ⟨fun item hitem => search_honours h hitem, fun hpost => ((search_eq_ok hpost).mp h).2⟩
  · intro knowledgeUids h
    exact ⟨fun item hitem => hydrate_honours h hitem, (hydrate_eq_ok.mp h).2⟩
  · intro videoId asOf mode role segment h
    exact ⟨fun item hitem => listForVideoAsOf_honours h hitem, (listForVideoAsOf_eq_ok.mp h).2.2⟩

/-- Texts for rows whose only timestamp is the one shown here. -/
def plainTexts : ReadTexts where
  fromisoformat s := if s = "2026-05-02T00:00:00+00:00" then some (.ofUtc (20575 * dayLength)) else none
  text _ := ""
  upper := String.toUpper
  upper_system := by with_unfolding_all decide

def publicUnit (knowledgeUid quality : String) (confidence : Rat) : KnowledgeUnitRow where
  knowledgeUid := knowledgeUid
  videoId := "v1"
  statement := "statement"
  confidence := confidence
  availableFrom := 20600 * dayLength
  attributes := [("source_available_at", .str "2026-05-02T00:00:00+00:00"), ("source_availability_quality", .str quality)]

def publicDb : KnowledgeDb where
  units := ⟨[publicUnit "k1" "PUBLISHED_TIME_PROXY" 1, publicUnit "k2" "EXACT" (1 / 2)], by decide⟩
  ledger := ⟨[], List.nodup_nil⟩

def strictFilters : KnowledgeFilters where
  pitMode := some (some "PUBLIC_STRICT")
  availabilityAsOf := some (some (.ofUtc (20630 * dayLength)))

/-- The better row is rejected and does not take the place of the other one. -/
theorem rejected_row_hides_nothing :
    search plainTexts (fun _ _ => true) "" strictFilters 1 publicDb = .ok [payload (publicUnit "k2" "EXACT" (1 / 2))] ∧
    Honours plainTexts strictFilters publicDb (publicUnit "k2" "EXACT" (1 / 2)) := by
  have hsearch : search plainTexts (fun _ _ => true) "" strictFilters 1 publicDb =
      .ok [payload (publicUnit "k2" "EXACT" (1 / 2))] := by with_unfolding_all decide
  refine ⟨hsearch, ?_⟩
  obtain ⟨hhonours, _⟩ := (reads_honour_filters plainTexts (fun _ _ => true) publicDb strictFilters 1
    [payload (publicUnit "k2" "EXACT" (1 / 2))]).1 "" hsearch
  obtain ⟨row, hrow, hpayload⟩ := hhonours _ List.mem_cons_self
  have hsame : publicUnit "k2" "EXACT" (1 / 2) = row := congrArg KnowledgePayload.toKnowledgeUnitRow hpayload
  rwa [hsame]

def claimUnit : KnowledgeUnitRow where
  knowledgeUid := "k1"
  videoId := "v1"
  statement := "statement"
  confidence := 1
  availableFrom := 0
  attributes := [("claim_id", .str "c1")]

def ledgerEvent (id toStatus : String) (effectiveAt recordedAt : Time) : LifecycleEventLedgerRow where
  lifecycleEventId := id
  targetType := .claim
  targetId := "c1"
  fromStatus := none
  toStatus := toStatus
  effectiveAt := effectiveAt
  recordedAt := recordedAt
  reasonCode := "REASON"
  policyVersion := "v1"
  supersedesEventId := none

/-- The end of the claim was recorded long after it took effect. -/
def lateDb : KnowledgeDb where
  units := ⟨[claimUnit], by decide⟩
  ledger := ⟨[ledgerEvent "e1" "ACTIVE" 1 1, ledgerEvent "e2" "SUPERSEDED" 2 10], by decide⟩

def clock : Option (Option DateTime) := some (some (.ofUtc 5))

/-- A row found for both clocks is rejected for the business clock taken alone. -/
theorem clocks_are_one_filter :
    search plainTexts (fun _ _ => true) "" { businessAsOf := clock, knowledgeAsOf := clock } 10 lateDb =
      .ok [payload claimUnit] ∧
    rowMatches plainTexts lateDb.ledger { businessAsOf := clock } claimUnit = .ok false ∧
    search plainTexts (fun _ _ => true) "" { businessAsOf := clock } 10 lateDb = .ok [] := by
  with_unfolding_all decide

end Results
end StockContent.Knowledge
