import StockContent.Numeric.FinancialNumeric

/-! Comparing two numbers by their intervals and comparison words. -/
namespace StockContent.Numeric
open StockContent.Text

section Match

def isDirectional : Comparator → Bool
  | .lt | .lte | .gt | .gte => true
  | .eq | .approx => false

/-- The comparison word and its threshold. -/
def directional (v : FinancialNumericValue) : Option (Comparator × Binary64) :=
  match v.comparator, v.value with
  | some comparator, some threshold => if isDirectional comparator then some (comparator, threshold) else none
  | _, _ => none

def interval (v : FinancialNumericValue) : Option (Binary64 × Binary64) :=
  match v.minValue, v.maxValue with
  | some least, some greatest => some (least, greatest)
  | _, _ =>
    v.value.map fun point =>
      if v.comparator = some .approx || v.approximate then (point.mul (.ofDecimal 9 1), point.mul (.ofDecimal 11 1))
      else (point, point)

def satisfies (range : Binary64 × Binary64) (comparator : Comparator) (threshold : Binary64) : Bool :=
  match comparator with
  | .lt => range.2.lt threshold
  | .lte => range.2.le threshold
  | .gt => threshold.lt range.1
  | .gte => threshold.le range.1
  | .eq | .approx => false

def numericValuesMatch (claim source : FinancialNumericValue) : Bool :=
  if claim.unit.isSome && source.unit.isSome && claim.unit ≠ source.unit then false
  else
    match directional claim, directional source with
    | some (comparator, threshold), some (comparator', threshold') =>
      comparator = comparator' && (threshold.sub threshold').abs.lt (.ofDecimal 1 9)
    | some (comparator, threshold), none => (interval source).any (satisfies · comparator threshold)
    | none, some (comparator, threshold) => (interval claim).any (satisfies · comparator threshold)
    | none, none =>
      match interval claim, interval source with
      | some range, some range' => range.1.le range'.2 && range'.1.le range.2
      | _, _ => false

theorem numericValuesMatch_comm (a b : FinancialNumericValue) : numericValuesMatch a b = numericValuesMatch b a := by
  have hunits : (a.unit.isSome && b.unit.isSome && decide (a.unit ≠ b.unit)) =
      (b.unit.isSome && a.unit.isSome && decide (b.unit ≠ a.unit)) := by
    rw [Bool.and_comm a.unit.isSome, decide_eq_decide.mpr (ne_comm (a := a.unit))]
  rw [numericValuesMatch, numericValuesMatch, hunits]
  split
  · rfl
  · cases directional a with
    | none =>
      cases directional b with
      | none =>
        cases interval a with
        | none => cases interval b <;> rfl
        | some range =>
          cases interval b with
          | none => rfl
          | some range' => exact Bool.and_comm _ _
      | some threshold => rfl
    | some threshold =>
      cases directional b with
      | none => rfl
      | some threshold' =>
        dsimp only
        rw [Binary64.abs_sub_comm, decide_eq_decide.mpr (eq_comm (a := threshold.1))]

end Match

section Values
open Binary64

/-- The parts of a number that is being read. -/
structure CnState.Valid (s : CnState) : Prop where
  total : s.total.Magnitude
  sectionSum : s.sectionSum.Magnitude
  digit : s.digit.Magnitude
  unit : s.lastSmallUnit ≤ 1000

theorem cnDigit_le {c : Char} {d : Nat} (h : cnDigit c = some d) : d ≤ 9 := by
  unfold cnDigit at h
  split at h <;> first | (cases h; decide) | cases h

theorem cnSmallUnit_bounds {c : Char} {u : Nat} (h : cnSmallUnit c = some u) : 0 < u ∧ u ≤ 1000 := by
  unfold cnSmallUnit at h
  split at h <;> first | (cases h; decide) | cases h

theorem cnBigUnit_bounds {c : Char} {u : Nat} (h : cnBigUnit c = some u) : 0 < u ∧ u ≤ 100000000 := by
  unfold cnBigUnit at h
  split at h <;> first | (cases h; decide) | cases h

theorem CnState.Valid.step {s s' : CnState} (hs : s.Valid) {c : Char} (h : cnStep s c = some s') : s'.Valid := by
  have hzero : (natural 0).Magnitude := magnitude_natural (Nat.zero_le _)
  unfold cnStep at h
  split at h
  case h_1 d hd =>
    cases h
    have hle := cnDigit_le hd
    exact ⟨hs.total, hs.sectionSum, magnitude_ofNat (by omega), hs.unit⟩
  case h_2 =>
    split at h
    case h_1 u hu =>
      cases h
      have hbounds := cnSmallUnit_bounds hu
      refine ⟨hs.total, hs.sectionSum.add (Magnitude.mul_ofNat ?_ hbounds.1 (by omega)), hzero, hbounds.2⟩
      split
      · exact hs.digit
      · exact magnitude_ofNat (by decide)
    case h_2 =>
      split at h
      case h_1 u hu =>
        cases h
        have hbounds := cnBigUnit_bounds hu
        exact ⟨hs.total.add ((hs.sectionSum.add hs.digit).mul_ofNat hbounds.1 (by omega)), hzero, hzero,
          show 1 ≤ 1000 by decide⟩
      case h_2 => cases h

theorem CnState.Valid.run {s s' : CnState} (hs : s.Valid) {text : List Char} (h : text.foldlM cnStep s = some s') :
    s'.Valid := by
  induction text generalizing s with
  | nil =>
    cases h
    exact hs
  | cons c text ih =>
    rw [List.foldlM_cons] at h
    obtain ⟨next, hnext, hrest⟩ := Option.bind_eq_some_iff.mp h
    exact ih (hs.step hnext) hrest

theorem parseCnNumber_magnitude {text : List Char} {x : Binary64} (h : parseCnNumber text = some x) : x.Magnitude := by
  have hzero : (natural 0).Magnitude := magnitude_natural (Nat.zero_le _)
  unfold parseCnNumber at h
  split at h
  · cases h
  · obtain ⟨s, hrun, hs⟩ := Option.bind_eq_some_iff.mp h
    have hvalid : s.Valid := CnState.Valid.run ⟨hzero, hzero, hzero, show 1 ≤ 1000 by decide⟩ hrun
    split at hs
    case isFalse => cases hs
    case isTrue =>
      cases hs
      refine (hvalid.total.add hvalid.sectionSum).add ?_
      split
      · have hunit := hvalid.unit
        exact hvalid.digit.mul_ofNat (by omega) (by omega)
      · exact hvalid.digit

theorem cnNumberOrZero_magnitude (text : List Char) : (cnNumberOrZero text).Magnitude := by
  rw [cnNumberOrZero]
  cases h : parseCnNumber text with
  | none => exact magnitude_natural (Nat.zero_le _)
  | some x => exact parseCnNumber_magnitude h

/-- Every character of a Chinese number is read. -/
theorem cnStep_some (s : CnState) {c : Char} (hc : c ∈ cnNum.toList) : ∃ s', cnStep s c = some s' ∧ s'.seen = true := by
  have hread : ∀ c ∈ cnNum.toList, (cnDigit c).isSome || (cnSmallUnit c).isSome || (cnBigUnit c).isSome := by
    have hall : (cnNum.toList.all fun c => (cnDigit c).isSome || (cnSmallUnit c).isSome || (cnBigUnit c).isSome) = true := by
      decide
    exact List.all_eq_true.mp hall
  have hsome := hread c hc
  unfold cnStep
  split
  case h_1 => exact ⟨_, rfl, rfl⟩
  case h_2 hdigit =>
    split
    case h_1 => exact ⟨_, rfl, rfl⟩
    case h_2 hsmall =>
      split
      case h_1 => exact ⟨_, rfl, rfl⟩
      case h_2 hbig => simp [hdigit, hsmall, hbig] at hsome

theorem run_some {text : List Char} (htext : ∀ c ∈ text, c ∈ cnNum.toList) (s : CnState) (hs : text = [] → s.seen = true) :
    ∃ s', text.foldlM cnStep s = some s' ∧ s'.seen = true := by
  induction text generalizing s with
  | nil => exact ⟨s, rfl, hs rfl⟩
  | cons c text ih =>
    obtain ⟨next, hnext, hseen⟩ := cnStep_some s (htext c List.mem_cons_self)
    rw [run_cons hnext]
    exact ih (fun c hc => htext c (List.mem_cons_of_mem _ hc)) next fun _ => hseen

theorem parseCnNumber_some {text : List Char} (hne : text ≠ []) (htext : ∀ c ∈ text, c ∈ cnNum.toList) :
    ∃ x, parseCnNumber text = some x ∧ x.Magnitude := by
  obtain ⟨s, hrun, hseen⟩ := run_some htext .initial fun h => absurd h hne
  have hparse : parseCnNumber text = some s.value := by
    rw [parseCnNumber, if_neg (by simpa using hne), hrun, Option.bind_some, if_pos hseen]
  exact ⟨_, hparse, parseCnNumber_magnitude hparse⟩

/-- A number has one value, or a range. -/
def Sound (v : FinancialNumericValue) : Prop :=
  (∃ x, v.value = some x ∧ x.Magnitude ∧ v.minValue = none) ∨
    ∃ least greatest, v.value = none ∧ v.minValue = some least ∧ v.maxValue = some greatest ∧ least.le greatest = true

theorem sound_point {v : FinancialNumericValue} {x : Binary64} (hx : x.Magnitude) (hvalue : v.value = some x)
    (hmin : v.minValue = none) : Sound v :=
  .inl ⟨x, hvalue, hx, hmin⟩

theorem sound_cnPoint {x : Binary64} (hx : x.Magnitude) (suffix : List Char) : Sound (cnPoint x suffix) := by
  rw [cnPoint]
  split
  · exact sound_point (hx.mul_ofNat (by decide) (by decide)) rfl rfl
  · exact sound_point hx rfl rfl

theorem sound_rangeValue {x : Binary64} (hx : x.Magnitude) {s : Nat} (hleast : 10 ≤ s) (hmost : s ≤ 100)
    (suffix : List Char) : Sound (rangeValue x (ofNat s) suffix) := by
  obtain ⟨hle, hgreatest⟩ := le_add_sub_one hx hleast hmost
  rw [rangeValue, ofNat_natural (show s ≤ 2 ^ 53 by omega), ofNat_natural (show 1 ≤ 2 ^ 53 by decide)]
  split
  · exact .inr ⟨_, _, rfl, rfl, rfl, mul_ofNat_le hx hgreatest hle (by decide) (by decide)⟩
  · exact .inr ⟨_, _, rfl, rfl, rfl, hle⟩

theorem sound_register {tables : NumberTables} {text : List Char} {m : Match} {v : FinancialNumericValue} (h : Sound v) :
    Sound (register tables text m v).value := h

theorem floatOf_magnitude (tables : NumberTables) (text : List Char) : (floatOf tables text).Magnitude :=
  magnitude_ofQuotient (Int.natCast_nonneg _) (Nat.pow_pos (by decide))

theorem cnNumNoBig_subset : cnNumNoBig.toList ⊆ cnNum.toList := by
  have hall : (cnNumNoBig.toList.all cnNum.toList.contains) = true := by decide
  intro c hc
  exact List.contains_iff_mem.mp (List.all_eq_true.mp hall c hc)

/-- What each pattern makes of a match. -/
theorem families_sound (tables : NumberTables) : ∀ family ∈ families tables, ∀ m : Match,
    List.Forall₂ Regex.ReadsText family.1 m.parts → Sound (family.2 m) := by
  intro family hfamily m hparts
  have hnumber {chars : String} {taken : List Char} (hchars : chars.toList ⊆ cnNum.toList)
      (h : (Regex.some (.oneOf chars)).ReadsText taken) : ∃ x, parseCnNumber taken = some x ∧ x.Magnitude := by
    obtain ⟨hne, hall⟩ := Regex.readsText_some_oneOf h
    exact parseCnNumber_some hne fun c hc => hchars (hall c hc)
  rcases m with ⟨start, parts⟩
  simp only [families, List.mem_cons, List.not_mem_nil, or_false] at hfamily
  rcases hfamily with rfl | rfl | rfl | rfl | rfl | rfl | rfl
  · rcases hparts with _ | ⟨-, _ | ⟨hpart, -⟩⟩
    obtain ⟨x, hparse, hx⟩ := hnumber (List.Subset.refl _) hpart
    exact sound_point hx hparse rfl
  · exact sound_rangeValue (cnNumberOrZero_magnitude _) (by decide) (by decide) _
  · change Sound (rangeDuo _)
    unfold rangeDuo
    split
    · exact sound_rangeValue (cnNumberOrZero_magnitude _) (by decide) (by decide) _
    · exact sound_rangeValue (cnNumberOrZero_magnitude _) (by decide) (by decide) _
  · rcases hparts with _ | ⟨hpart, -⟩
    obtain ⟨x, hparse, hx⟩ := hnumber (List.Subset.refl _) hpart
    exact sound_point hx hparse rfl
  · rcases hparts with _ | ⟨hpart, -⟩
    obtain ⟨x, hparse, hx⟩ := hnumber cnNumNoBig_subset hpart
    exact sound_point hx hparse rfl
  · exact sound_cnPoint (cnNumberOrZero_magnitude _) _
  · exact sound_point (floatOf_magnitude _ _) rfl rfl

theorem parsed_sound {tables : NumberTables} {text : List Char} {v : FinancialNumericValue}
    (h : v ∈ parseFinancialNumerics tables text) : Sound v := by
  obtain ⟨r, hr, rfl⟩ := List.mem_map.mp h
  obtain ⟨family, hfamily, m, hm, rfl⟩ := (registered_spec tables text).2 r ((List.mem_insertionSort _).mp hr)
  have hparts := (finditer_parts (families_consuming tables family hfamily) hm).2.1
  exact sound_register (families_sound tables family hfamily m hparts)

end Values

section Reflexivity
open Binary64

theorem tenths : ∃ low high : Int, ofDecimal 9 1 = finite low ∧ ofDecimal 11 1 = finite high ∧ 0 < low ∧ low ≤ high :=
  ⟨roundUnits (9 * one) 10, roundUnits (11 * one) 10, by decide +kernel, by decide +kernel, by decide +kernel,
    by decide +kernel⟩

theorem tolerance_pos : ∃ bound : Int, ofDecimal 1 9 = finite bound ∧ 0 < bound :=
  ⟨roundUnits one 1000000000, by decide +kernel, by decide +kernel⟩

theorem interval_ordered {v : FinancialNumericValue} (h : Sound v) :
    ∃ least greatest, interval v = some (least, greatest) ∧ least.le greatest = true := by
  obtain ⟨low, high, hlow, hhigh, hpos, hle⟩ := tenths
  rcases h with ⟨x, hvalue, hx, hmin⟩ | ⟨least, greatest, -, hmin, hmax, hle⟩
  · by_cases happrox : (decide (v.comparator = some .approx) || v.approximate) = true
    · refine ⟨x.mul (finite low), x.mul (finite high), ?_, mul_le_mul_of_factor_le hx hpos hle⟩
      rw [interval, hmin, hvalue, Option.map_some, if_pos happrox, hlow, hhigh]
    · refine ⟨x, x, ?_, hx.le_self⟩
      rw [interval, hmin, hvalue, Option.map_some, if_neg happrox]
  · exact ⟨least, greatest, by rw [interval, hmin, hmax], hle⟩

/-- A threshold that is no finite number, after a word that compares. -/
def Overflowing (v : FinancialNumericValue) : Prop :=
  (∃ comparator, v.comparator = some comparator ∧ isDirectional comparator = true) ∧ v.value = some (.infinite false)

theorem numericValuesMatch_self {v : FinancialNumericValue} (h : Sound v) :
    numericValuesMatch v v = true ↔ ¬ Overflowing v := by
  have hunits : ¬ (v.unit.isSome && v.unit.isSome && decide (v.unit ≠ v.unit)) = true := by simp
  rw [numericValuesMatch, if_neg hunits]
  cases hdirectional : directional v with
  | none =>
    obtain ⟨least, greatest, hinterval, hle⟩ := interval_ordered h
    refine iff_of_true (by simp [hinterval, hle]) ?_
    rintro ⟨⟨comparator, hcomparator, hdirection⟩, hvalue⟩
    simp [directional, hcomparator, hvalue, hdirection] at hdirectional
  | some threshold =>
    obtain ⟨comparator, x⟩ := threshold
    obtain ⟨bound, hbound, hpos⟩ := tolerance_pos
    have hparts : v.comparator = some comparator ∧ isDirectional comparator = true ∧ v.value = some x := by
      unfold directional at hdirectional
      split at hdirectional
      case h_2 => cases hdirectional
      case h_1 comparator' x' hcomparator hvalue =>
        split at hdirectional
        case isFalse => cases hdirectional
        case isTrue hdirection =>
          cases hdirectional
          exact ⟨hcomparator, hdirection, hvalue⟩
    obtain ⟨hcomparator, hdirection, hvalue⟩ := hparts
    have hx : x.Magnitude := by
      rcases h with ⟨y, hy, hmagnitude, -⟩ | ⟨least, greatest, hnone, -⟩
      · rw [hvalue, Option.some_inj] at hy
        exact hy ▸ hmagnitude
      · rw [hvalue] at hnone
        cases hnone
    dsimp only
    rw [decide_eq_true rfl, Bool.true_and, hbound, abs_sub_self_lt hx hpos, Overflowing, hvalue, Option.some_inj]
    exact ⟨fun hfinite hover => hfinite hover.2, fun hnot hinfinite => hnot ⟨⟨comparator, hcomparator, hdirection⟩, hinfinite⟩⟩

/-- Numbers match either way round, and each matches itself, but for a threshold that has become infinite. -/
theorem numericValuesMatch_symm_refl {tables : NumberTables} {text text' : List Char} {a b : FinancialNumericValue}
    (ha : a ∈ parseFinancialNumerics tables text) (_hb : b ∈ parseFinancialNumerics tables text') :
    (numericValuesMatch a b = numericValuesMatch b a ∧ numericValuesMatch a a = true) ↔ ¬ Overflowing a := by
  rw [and_iff_right (numericValuesMatch_comm a b)]
  exact numericValuesMatch_self (parsed_sound ha)

theorem threshold_matches : ∃ a ∈ parseFinancialNumerics plainNumberTables "超过1.5倍".toList,
    ∃ b ∈ parseFinancialNumerics plainNumberTables "十来倍".toList,
      numericValuesMatch a b = numericValuesMatch b a ∧ numericValuesMatch a a = true := by
  have ha : (parseFinancialNumerics plainNumberTables "超过1.5倍".toList).headD {} ∈
      parseFinancialNumerics plainNumberTables "超过1.5倍".toList := by decide +kernel
  have hb : (parseFinancialNumerics plainNumberTables "十来倍".toList).headD {} ∈
      parseFinancialNumerics plainNumberTables "十来倍".toList := by decide +kernel
  refine ⟨_, ha, _, hb, (numericValuesMatch_symm_refl ha hb).mpr ?_⟩
  intro hover
  exact absurd hover.2 (by decide +kernel)

/-- A threshold of 310 digits. -/
theorem overflowing_threshold_unmatched :
    ¬ ∀ (tables : NumberTables) (text : List Char), ∀ a ∈ parseFinancialNumerics tables text,
      numericValuesMatch a a = true := by
  intro hall
  have hparsed : parseFinancialNumerics plainNumberTables ("超过1".toList ++ List.replicate 309 '0') =
      [{ rawExpression := "超过1".toList ++ List.replicate 309 '0', value := some (.infinite false),
         comparator := some .gt }] := by decide +kernel
  have hself := hall plainNumberTables ("超过1".toList ++ List.replicate 309 '0') _ (hparsed ▸ List.mem_singleton_self _)
  exact absurd hself (by decide)

end Reflexivity
end StockContent.Numeric
