import StockContent.Signals.QueryMapping
import StockContent.Text.Fullmatch
import StockContent.Text.Strip

/-! Calendar expressions as intervals in UTC: an ISO instant, a day, a month, or the year that a text names. -/
namespace StockContent.Knowledge
open Storage Text

/-- The character tables, the value of a decimal digit, and what they agree on with ASCII. -/
structure CalendarRuntime where
  tables : CharTables
  digit : Char → Nat
  digit_lt : ∀ c, tables.isDecimal c = true → digit c < 10
  ascii : ∀ c : Char, c.isDigit = true → tables.isDecimal c = true ∧ digit c = c.toNat - 48
  separators : ∀ c ∈ ['-', '年', '月', '日'], tables.isDecimal c = false ∧ tables.isSpace c = false
  notSpace : ∀ c : Char, c.isDigit = true → tables.isSpace c = false

inductive Precision where
  | instant | day | month | year
  deriving DecidableEq

structure CalendarInterval where
  start : String
  stop : String
  precision : Precision
  deriving DecidableEq

inductive CalendarValue where
  | datetime (value : Datetime)
  | text (value : String)
  | other

/-- An instant that is before the year 1 or after the year 9999 in UTC. -/
inductive CalendarError where
  | overflow
  deriving DecidableEq

section Patterns
variable (tables : CharTables)

/-- `(?:19|20)\d{2}`. -/
def yearPart : Regex := .sequence [.alt (.word "19") (.word "20"), .one tables.isDecimal, .one tables.isDecimal]

/-- `0?[1-9]|1[0-2]`. -/
def monthPart : Regex := .alt (.seq (.option (.char '0')) (.range '1' '9')) (.seq (.char '1') (.range '0' '2'))

/-- `0?[1-9]|[12]\d|3[01]`. -/
def dayPart : Regex :=
  .alt (.seq (.option (.char '0')) (.range '1' '9'))
    (.alt (.seq (.oneOf "12") (.one tables.isDecimal)) (.seq (.char '3') (.oneOf "01")))

/-- `-|年\s*`, and with the months `-|月\s*`. -/
def separatorPart (unit : Char) : Regex := .alt (.char '-') (.seq (.char unit) (.many (.one tables.isSpace)))

def yearMonthDay : List Regex :=
  [yearPart tables, separatorPart tables '年', monthPart, separatorPart tables '月', dayPart tables, .option (.char '日')]

def yearMonth : List Regex := [yearPart tables, separatorPart tables '年', monthPart, .option (.char '月')]

def yearOnly : List Regex := [yearPart tables, .option (.char '年')]

end Patterns

section Intervals

/-- The first microsecond of a day. -/
def dayStart (year month day : Int) : Time := dayNumber year month day * dayMicroseconds

/-- The last microsecond of a day. -/
def dayStop (year month day : Int) : Time := dayNumber year month day * dayMicroseconds + (dayMicroseconds - 1)

def dayInterval (year month day : Int) : CalendarInterval where
  start := Ledger.zulu (dayStart year month day)
  stop := Ledger.zulu (dayStop year month day)
  precision := .day

def monthInterval (year month : Int) : CalendarInterval where
  start := Ledger.zulu (dayStart year month 1)
  stop := Ledger.zulu (dayStop year month (daysInMonth year month))
  precision := .month

def yearInterval (year : Int) : CalendarInterval where
  start := Ledger.zulu (dayStart year 1 1)
  stop := Ledger.zulu (dayStop year 12 31)
  precision := .year

/-- A naive datetime is no instant. -/
def instantInterval (value : Datetime) : Except CalendarError (Option CalendarInterval) :=
  if value.offset = none then .ok none
  else if isDatetime value.utc then
    .ok (some { start := Ledger.zulu value.utc, stop := Ledger.zulu value.utc, precision := .instant })
  else .error .overflow

end Intervals

section Read
variable (rt : CalendarRuntime)

/-- `int` of digits. -/
def intOf (digits : List Char) : Nat := digits.foldl (fun n c => 10 * n + rt.digit c) 0

/-- The patterns from the day to the year, and at last a year anywhere in the text. -/
def patternInterval (text : List Char) : Option CalendarInterval :=
  match fullmatch (yearMonthDay rt.tables) text with
  | some parts =>
    let part (i : Nat) : Int := intOf rt (parts.getD i [])
    if isDate (part 0) (part 2) (part 4) then some (dayInterval (part 0) (part 2) (part 4)) else none
  | none => match fullmatch (yearMonth rt.tables) text with
    | some parts => some (monthInterval (intOf rt (parts.getD 0 [])) (intOf rt (parts.getD 2 [])))
    | none => match fullmatch (yearOnly rt.tables) text with
      | some parts => some (yearInterval (intOf rt (parts.getD 0 [])))
      | none => (Text.search [yearPart rt.tables] text).map fun found => yearInterval (intOf rt found.text)

def calendarInterval (value : CalendarValue) : Except CalendarError (Option CalendarInterval) :=
  match value with
  | .other => .ok none
  | .datetime value => instantInterval value
  | .text value =>
    let text := stripChars rt.tables value.toList
    if text.isEmpty then .ok none
    else match Datetime.ofText (Signals.zuluToOffset (String.ofList text)) with
      | some parsed => instantInterval parsed
      | none => .ok (patternInterval rt text)

end Read

section Numbers
variable {rt : CalendarRuntime} {taken : List Char}

theorem intOf_append (before after : List Char) :
    intOf rt (before ++ after) = after.foldl (fun n c => 10 * n + rt.digit c) (intOf rt before) :=
  List.foldl_append

theorem digit_digitChar {n : Nat} (h : n < 10) : rt.digit (Nat.digitChar n) = n := by
  obtain ⟨hdigit, hvalue⟩ := digitChar_isDigit h
  rw [(rt.ascii _ hdigit).2, hvalue]

theorem intOf_numeral {width n : Nat} (h : n < 10 ^ width) : intOf rt (numeral width n) = n := by
  induction width generalizing n with
  | zero => exact (Nat.lt_one_iff.mp h).symm
  | succ width ih =>
    rw [Nat.pow_succ] at h
    rw [numeral, intOf_append, ih (Nat.div_lt_of_lt_mul (by omega)), List.foldl_cons, List.foldl_nil,
      digit_digitChar (Nat.mod_lt n (by decide))]
    omega

theorem readsText_yearPart (h : (yearPart rt.tables).ReadsText taken) : ∃ century a b,
    taken = numeral 2 century ++ [a, b] ∧ (century = 19 ∨ century = 20) ∧ rt.tables.isDecimal a = true ∧
      rt.tables.isDecimal b = true := by
  obtain ⟨first, more, rfl, hfirst, hmore⟩ := Regex.readsText_seq h
  obtain ⟨second, last, rfl, hsecond, hlast⟩ := Regex.readsText_seq hmore
  obtain ⟨third, none, rfl, hthird, hnone⟩ := Regex.readsText_seq hlast
  obtain ⟨a, rfl, ha⟩ := Regex.readsText_one hsecond
  obtain ⟨b, rfl, hb⟩ := Regex.readsText_one hthird
  obtain rfl := Regex.readsText_empty hnone
  rcases Regex.readsText_alt hfirst with hword | hword
  · exact ⟨19, a, b, by rw [Regex.readsText_word hword]; rfl, .inl rfl, ha, hb⟩
  · exact ⟨20, a, b, by rw [Regex.readsText_word hword]; rfl, .inr rfl, ha, hb⟩

theorem consuming_yearPart (rt : CalendarRuntime) : Consuming [yearPart rt.tables] := by
  refine consuming_of_part List.mem_cons_self fun taken h => ?_
  obtain ⟨century, a, b, rfl, -⟩ := readsText_yearPart h
  simp

/-- The patterns know the years from 1900 to 2099. -/
theorem intOf_yearPart (h : (yearPart rt.tables).ReadsText taken) : 1900 ≤ intOf rt taken ∧ intOf rt taken ≤ 2099 := by
  obtain ⟨century, a, b, rfl, hcentury, ha, hb⟩ := readsText_yearPart h
  have ha' := rt.digit_lt a ha
  have hb' := rt.digit_lt b hb
  rw [intOf_append, intOf_numeral (by omega), List.foldl_cons, List.foldl_cons, List.foldl_nil]
  omega

theorem digitChar_of_toNat {c : Char} (h₀ : 48 ≤ c.toNat) (h₁ : c.toNat ≤ 57) : c = Nat.digitChar (c.toNat - 48) := by
  have hdigits : ∀ n : Fin 10, Char.ofNat (48 + n.val) = Nat.digitChar n.val := by decide
  have hdigit := hdigits ⟨c.toNat - 48, by omega⟩
  rwa [Nat.add_sub_cancel' h₀, Char.ofNat_toNat] at hdigit

theorem readsText_range {first last c : Char} (h : (decide (first ≤ c) && decide (c ≤ last)) = true) :
    first.toNat ≤ c.toNat ∧ c.toNat ≤ last.toNat := by
  rw [Bool.and_eq_true, decide_eq_true_eq, decide_eq_true_eq] at h
  exact h

/-- `0?[1-9]`. -/
theorem readsText_single (h : (Regex.seq (.option (.char '0')) (.range '1' '9')).ReadsText taken) :
    ∃ n, 1 ≤ n ∧ n < 10 ∧ (taken = numeral 2 n ∨ taken = numeral 1 n) := by
  obtain ⟨zero, one, rfl, hzero, hone⟩ := Regex.readsText_seq h
  obtain ⟨c, rfl, hc⟩ := Regex.readsText_one hone
  obtain ⟨h₀, h₁⟩ := readsText_range hc
  have hdigit : c = Nat.digitChar (c.toNat - 48) :=
    digitChar_of_toNat (le_trans (by decide) h₀) (le_trans h₁ (by decide))
  have hlow : 49 ≤ c.toNat := h₀
  have hhigh : c.toNat ≤ 57 := h₁
  refine ⟨c.toNat - 48, by omega, by omega, ?_⟩
  have hmod : (c.toNat - 48) % 10 = c.toNat - 48 := Nat.mod_eq_of_lt (by omega)
  have hdiv : (c.toNat - 48) / 10 % 10 = 0 := by omega
  rw [numeral, numeral, numeral, numeral, hmod, hdiv, ← hdigit]
  rcases Regex.readsText_option hzero with rfl | hzero
  · exact .inr rfl
  · obtain ⟨d, rfl, hd⟩ := Regex.readsText_one hzero
    obtain rfl := of_decide_eq_true hd
    exact .inl rfl

/-- A month is read in ASCII digits, with or without a leading zero. -/
theorem readsText_monthPart (h : monthPart.ReadsText taken) :
    ∃ month, 1 ≤ month ∧ month ≤ 12 ∧ (taken = numeral 2 month ∨ month < 10 ∧ taken = numeral 1 month) := by
  rcases Regex.readsText_alt h with h | h
  · obtain ⟨n, h₀, h₁, htext⟩ := readsText_single h
    exact ⟨n, h₀, by omega, htext.imp_right fun htext => ⟨h₁, htext⟩⟩
  · obtain ⟨ten, unit, rfl, hten, hunit⟩ := Regex.readsText_seq h
    obtain ⟨d, rfl, hd⟩ := Regex.readsText_one hten
    obtain ⟨c, rfl, hc⟩ := Regex.readsText_one hunit
    obtain rfl := of_decide_eq_true hd
    obtain ⟨h₀, h₁⟩ := readsText_range hc
    have hdigit : c = Nat.digitChar (c.toNat - 48) := digitChar_of_toNat h₀ (le_trans h₁ (by decide))
    have hlow : 48 ≤ c.toNat := h₀
    have hhigh : c.toNat ≤ 50 := h₁
    refine ⟨10 + (c.toNat - 48), by omega, by omega, .inl ?_⟩
    have hmod : (10 + (c.toNat - 48)) % 10 = c.toNat - 48 := by omega
    have hdiv : (10 + (c.toNat - 48)) / 10 % 10 = 1 := by omega
    rw [numeral, numeral, numeral, hmod, hdiv, ← hdigit]
    rfl

theorem intOf_monthPart (h : monthPart.ReadsText taken) : 1 ≤ intOf rt taken ∧ intOf rt taken ≤ 12 := by
  obtain ⟨month, h₀, h₁, rfl | ⟨hsingle, rfl⟩⟩ := readsText_monthPart h
  · rw [intOf_numeral (by omega)]
    exact ⟨h₀, h₁⟩
  · rw [intOf_numeral (by omega)]
    exact ⟨h₀, h₁⟩

end Numbers

section Order

/-- Both ends are instants, and the first is no later than the last. -/
def CalendarInterval.Ordered (interval : CalendarInterval) : Prop :=
  ∃ first last : Time, fromisoformat (Signals.zuluToOffset interval.start) = some (first, some 0) ∧
    fromisoformat (Signals.zuluToOffset interval.stop) = some (last, some 0) ∧ first ≤ last

theorem fromisoformat_zulu {t : Time} (h : isDatetime t) :
    fromisoformat (Signals.zuluToOffset (Ledger.zulu t)) = some (t, some 0) := by
  rw [Signals.FormalContentSignalQuery.zuluToOffset_zulu h, fromisoformat_isoformat h]

theorem isDatetime_day {year month day : Int} (h : isDate year month day) :
    isDatetime (dayStart year month day) ∧ isDatetime (dayStop year month day) := by
  obtain ⟨hfirst, hlast⟩ := dayNumber_bounds h
  simp only [isDatetime, inYears, dayStart, dayStop, dayMicroseconds]
  omega

theorem ordered_of_days {year month day month' day' : Int} (precision : Precision) (h : isDate year month day)
    (h' : isDate year month' day') (hle : dayNumber year month day ≤ dayNumber year month' day') :
    (CalendarInterval.mk (Ledger.zulu (dayStart year month day)) (Ledger.zulu (dayStop year month' day'))
      precision).Ordered := by
  refine ⟨_, _, fromisoformat_zulu (isDatetime_day h).1, fromisoformat_zulu (isDatetime_day h').2, ?_⟩
  simp only [dayStart, dayStop, dayMicroseconds, Nat.cast_ofNat]
  exact (Int.mul_le_mul_of_nonneg_right hle (by decide)).trans (Int.le_add_of_nonneg_right (by decide))

theorem dayInterval_ordered {year month day : Int} (h : isDate year month day) : (dayInterval year month day).Ordered :=
  ordered_of_days .day h h le_rfl

theorem monthInterval_ordered {year month : Int} (hyear : 1 ≤ year ∧ year ≤ 9999) (hmonth : 1 ≤ month ∧ month ≤ 12) :
    (monthInterval year month).Ordered := by
  have hlength := (daysInMonth_bounds year month).1
  refine ordered_of_days .month ⟨hyear.1, hyear.2, hmonth.1, hmonth.2, le_rfl, by omega⟩
    ⟨hyear.1, hyear.2, hmonth.1, hmonth.2, by omega, le_rfl⟩ ?_
  rw [dayNumber_eq hmonth.1 hmonth.2, dayNumber_eq hmonth.1 hmonth.2]
  omega

theorem yearInterval_ordered {year : Int} (hyear : 1 ≤ year ∧ year ≤ 9999) : (yearInterval year).Ordered := by
  have hfirst : isDate year 1 1 :=
    ⟨hyear.1, hyear.2, by decide, by decide, le_rfl, (daysInMonth_bounds year 1).1.trans' (by decide)⟩
  have hlast : isDate year 12 31 := ⟨hyear.1, hyear.2, by decide, by decide, by decide, by simp [daysInMonth]⟩
  refine ordered_of_days .year hfirst hlast (dayNumber_lt hfirst hlast (.inl ?_)).le
  omega

variable {rt : CalendarRuntime}

theorem patternInterval_ordered {text : List Char} {interval : CalendarInterval}
    (h : patternInterval rt text = some interval) : interval.Ordered := by
  rw [patternInterval] at h
  have hyear {taken : List Char} (hread : (yearPart rt.tables).ReadsText taken) :
      1 ≤ (intOf rt taken : Int) ∧ (intOf rt taken : Int) ≤ 9999 := by
    have hbounds := @intOf_yearPart rt taken hread
    omega
  split at h
  · dsimp only at h
    split at h
    case isTrue hdate =>
      rw [← Option.some.inj h]
      exact dayInterval_ordered hdate
    case isFalse => cases h
  · split at h
    · rename_i parts hmatch
      obtain ⟨-, hparts⟩ := fullmatch_parts hmatch
      rw [yearMonth] at hparts
      obtain ⟨year, _, hfirst, hmore, rfl⟩ := List.forall₂_cons_left_iff.mp hparts
      obtain ⟨separator, _, -, hlast, rfl⟩ := List.forall₂_cons_left_iff.mp hmore
      obtain ⟨month, _, hthird, -, rfl⟩ := List.forall₂_cons_left_iff.mp hlast
      rw [← Option.some.inj h]
      have hmonth := @intOf_monthPart rt _ hthird
      exact monthInterval_ordered (hyear hfirst) ⟨by exact_mod_cast hmonth.1, by exact_mod_cast hmonth.2⟩
    · split at h
      · rename_i parts hmatch
        obtain ⟨-, hparts⟩ := fullmatch_parts hmatch
        rw [yearOnly] at hparts
        obtain ⟨year, _, hfirst, -, rfl⟩ := List.forall₂_cons_left_iff.mp hparts
        rw [← Option.some.inj h]
        exact yearInterval_ordered (hyear hfirst)
      · obtain ⟨found, hfound, rfl⟩ := Option.map_eq_some_iff.mp h
        obtain ⟨-, hparts, -⟩ := finditer_parts (consuming_yearPart rt) (List.mem_of_head? hfound)
        obtain ⟨year, _, hfirst, hnil, hfound⟩ := List.forall₂_cons_left_iff.mp hparts
        rw [List.forall₂_nil_left_iff.mp hnil] at hfound
        rw [Match.text, hfound, List.flatten_cons, List.flatten_nil, List.append_nil]
        exact yearInterval_ordered (hyear hfirst)

/-- No interval ends before it starts. -/
theorem calendarInterval_ordered {value : CalendarValue} {interval : CalendarInterval}
    (h : calendarInterval rt value = .ok (some interval)) : interval.Ordered := by
  have hinstant {read : Datetime} (h : instantInterval read = .ok (some interval)) : interval.Ordered := by
    rw [instantInterval] at h
    split at h
    · cases h
    · split at h
      case isTrue hrange =>
        rw [← Option.some.inj (Except.ok.inj h)]
        exact ⟨_, _, fromisoformat_zulu hrange, fromisoformat_zulu hrange, le_rfl⟩
      case isFalse => cases h
  unfold calendarInterval at h
  split at h
  · cases h
  · exact hinstant h
  · dsimp only at h
    split at h
    · cases h
    · split at h
      · exact hinstant h
      · exact patternInterval_ordered (Except.ok.inj h)

end Order
end StockContent.Knowledge
