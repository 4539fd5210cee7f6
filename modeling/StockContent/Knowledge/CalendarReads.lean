import StockContent.Knowledge.CalendarSpellings
import StockContent.Knowledge.ClaimDraft

/-! Which spellings of a calendar day and of a calendar month are resolved: the ISO reader takes the padded date for a
datetime without an offset, and no pattern is tried after it. -/
namespace StockContent.Knowledge
open Storage Text

section Iso
variable {year month day : Nat} {rest : List Char}

theorem digit_not_mark {c d : Char} (h : c.isDigit = true) (hd : d.isDigit = false) : c ≠ d := by
  rintro rfl
  exact absurd (hd.symm.trans h) Bool.false_ne_true

theorem getElem?_after_year (year : Nat) (c : Char) (rest : List Char) (i : Nat) :
    (numeral 4 year ++ c :: rest)[4 + i]? = (c :: rest)[i]? := by
  rw [List.getElem?_append_right (by simp)]
  simp

/-- The date is read up to where the clock would start, if it is written with dashes. -/
theorem separatorAt_dashes {digits : List Char} {n : Nat} (hm : Written n digits)
    (hlength : (numeral 4 year ++ '-' :: (digits ++ rest)).length ≠ 7) :
    separatorAt (numeral 4 year ++ '-' :: (digits ++ rest)) = 10 := by
  obtain ⟨c, digits', hdigits⟩ := List.exists_cons_of_length_pos hm.length.1
  have hc : c ≠ 'W' := digit_not_mark (hm.isDigit c (hdigits ▸ List.mem_cons_self)) (by decide)
  have hdash : (numeral 4 year ++ '-' :: (digits ++ rest))[4]? = some '-' :=
    getElem?_after_year year '-' (digits ++ rest) 0
  have hmonth := getElem?_after_year year '-' (digits ++ rest) 1
  rw [hdigits] at hmonth
  have hfirst : (numeral 4 year ++ '-' :: (digits ++ rest))[5]? ≠ some 'W' := by
    rw [hdigits]
    intro heq
    exact hc (Option.some.inj (hmonth.symm.trans heq))
  rw [separatorAt, if_neg hlength, if_pos hdash, if_neg hfirst]

theorem readDate_dashes {digits : List Char} {n : Nat} (hyear : year < 10000) (hm : Written n digits) :
    readDate (numeral 4 year ++ '-' :: (digits ++ rest)) = readMonth true year (digits ++ rest) := by
  obtain ⟨c, digits', hdigits⟩ := List.exists_cons_of_length_pos hm.length.1
  have hc : c ≠ 'W' := digit_not_mark (hm.isDigit c (hdigits ▸ List.mem_cons_self)) (by decide)
  have hread := @readDigits_numeral 4 year hyear 0 ('-' :: (digits ++ rest))
  rw [Nat.zero_mul, Nat.zero_add] at hread
  refine readDate_month hread ?_
  rw [hdigits, List.cons_append, List.head?_cons]
  exact fun heq => hc (Option.some.inj heq)

theorem readMonth_padded (hmonth : month < 100) (digits : List Char) :
    readMonth true year (numeral 2 month ++ '-' :: digits) = (readDigits 0 2 digits).bind fun read =>
      if read.2.isEmpty then monthDate year month read.1 else none := by
  rw [readMonth, readDigits_numeral hmonth, Nat.zero_mul, Nat.zero_add]
  rfl

/-- The padded date is a datetime without an offset. -/
theorem fromisoformat_iso (h : isDate year month day) :
    fromisoformat (String.ofList (numeral 4 year ++ '-' :: (numeral 2 month ++ '-' :: numeral 2 day))) =
      some (dayNumber year month day * dayMicroseconds, none) := by
  have hyear := h.year_le
  have hmonth := h.month_le
  have hday := h.day_le
  have hlength := (daysInMonth_bounds (year : Int) month).2
  have hm := @written_padded month (by omega)
  have hseparator := @separatorAt_dashes year ('-' :: numeral 2 day) _ _ hm (by simp)
  have hcount : (numeral 4 year ++ '-' :: (numeral 2 month ++ '-' :: numeral 2 day)).length = 10 := by simp
  have hreadDay := @readDigits_numeral 2 day (by omega) 0 []
  rw [List.append_nil] at hreadDay
  rw [fromisoformat, String.toList_ofList, if_neg (by rw [hcount]; decide), hseparator,
    List.take_of_length_le hcount.le, List.drop_of_length_le hcount.le, readDate_dashes (by omega) hm,
    readMonth_padded (by omega), hreadDay, Option.bind_some, Nat.zero_mul, Nat.zero_add, monthDate, if_pos h]
  rfl

/-- The units are no separators that the ISO reader knows. -/
theorem fromisoformat_units (hyear : year < 10000) (rest : List Char) :
    fromisoformat (String.ofList (numeral 4 year ++ '年' :: rest)) = none := by
  have hmark : (numeral 4 year ++ '年' :: rest)[4]? = some '年' := getElem?_after_year year '年' rest 0
  have hread (rest : List Char) : readDate (numeral 4 year ++ '年' :: rest) = none := by
    have hread := @readDigits_numeral 4 year hyear 0 ('年' :: rest)
    rw [readDate, hread]
    rfl
  have htake (i : Nat) : (numeral 4 year ++ '年' :: rest).take (5 + i) = numeral 4 year ++ '年' :: rest.take i := by
    rw [List.take_append, length_numeral, List.take_of_length_le (by simp; omega), show 5 + i - 4 = i + 1 by omega,
      List.take_succ_cons]
  have hseparator : separatorAt (numeral 4 year ++ '年' :: rest) = 5 + 2 ∨
      separatorAt (numeral 4 year ++ '年' :: rest) = 5 + 3 := by
    rw [separatorAt]
    split
    · exact .inl rfl
    · refine .inr ?_
      rw [if_neg, if_neg]
      · exact fun heq => absurd (Option.some.inj (hmark.symm.trans heq)) (by decide)
      · exact fun heq => absurd (Option.some.inj (hmark.symm.trans heq)) (by decide)
  rw [fromisoformat, String.toList_ofList]
  split
  · rfl
  · rcases hseparator with hseparator | hseparator <;> rw [hseparator, htake, hread] <;> rfl

theorem readDigits_single (n : Nat) {rest : List Char} (h : rest.head?.any Char.isDigit = false) :
    readDigits 0 2 (numeral 1 n ++ rest) = none := by
  have hdigit := (digitChar_isDigit (Nat.mod_lt n (show 0 < 10 by decide))).1
  rw [numeral, numeral, List.nil_append, List.singleton_append, readDigits, if_pos hdigit]
  cases rest with
  | nil => rfl
  | cons c rest => rw [readDigits, if_neg (by simpa using h)]

/-- Months and days of one digit are not read. -/
theorem fromisoformat_unpadded {month day : Nat} (hyear : year < 10000) (hmonth : month < 100) (hday : day < 100)
    (hshort : month < 10 ∨ day < 10) :
    fromisoformat (String.ofList (numeral 4 year ++ '-' :: (unpadded month ++ '-' :: unpadded day))) = none := by
  have hm := written_unpadded hmonth
  have hd := written_unpadded hday
  have hcount : (numeral 4 year ++ '-' :: (unpadded month ++ '-' :: unpadded day)).length =
      6 + (unpadded month).length + (unpadded day).length := by
    simp
    omega
  have hlength := hm.length
  have hlength' := hd.length
  have hread : readMonth true year (unpadded month ++ '-' :: unpadded day) = none := by
    by_cases hsmall : month < 10
    · rw [unpadded_eq hmonth, if_pos hsmall, readMonth, readDigits_single month (by simp)]
      rfl
    · have hday' := hshort.resolve_left hsmall
      have hnone := @readDigits_single day [] rfl
      rw [List.append_nil] at hnone
      rw [unpadded_eq hmonth, if_neg hsmall, readMonth_padded hmonth, unpadded_eq hday, if_pos hday', hnone]
      rfl
  rw [fromisoformat, String.toList_ofList, if_neg (by omega), separatorAt_dashes hm (by omega),
    List.take_of_length_le (by omega), readDate_dashes hyear hm, hread]
  rfl

/-- A year and a month are no date. -/
theorem fromisoformat_month {month : Nat} {digits : List Char} (hyear : year < 10000) (hm : Written month digits) :
    fromisoformat (String.ofList (numeral 4 year ++ '-' :: digits)) = none := by
  rw [fromisoformat, String.toList_ofList]
  rcases hm with ⟨hmonth, rfl⟩ | ⟨hmonth, rfl⟩
  · have hcount : (numeral 4 year ++ '-' :: numeral 2 month).length = 7 := by simp
    have hread := @readDate_dashes year [] _ _ hyear (written_padded hmonth)
    rw [List.append_nil] at hread
    have hmonthRead := @readDigits_numeral 2 month hmonth 0 []
    rw [List.append_nil] at hmonthRead
    rw [if_neg (by rw [hcount]; decide), separatorAt, if_pos hcount, List.take_of_length_le hcount.le, hread, readMonth,
      hmonthRead]
    rfl
  · rw [if_pos (by simp)]

end Iso

section Clean
variable {rt : CalendarRuntime} {text : List Char}

/-- Digits, dashes and units only. -/
def Clean (text : List Char) : Prop :=
  text ≠ [] ∧ ∀ c ∈ text, c.isDigit = true ∨ c = '-' ∨ c = '年' ∨ c = '月' ∨ c = '日'

theorem Clean.notSpace (h : Clean text) (rt : CalendarRuntime) : ∀ c ∈ text, rt.tables.isSpace c = false := by
  intro c hc
  rcases h.2 c hc with hdigit | hmark
  · exact rt.notSpace c hdigit
  · exact (rt.separators c (by simpa using hmark)).2

theorem Clean.stripChars (h : Clean text) : Text.stripChars rt.tables text = text := by
  have hspace := h.notSpace rt
  refine stripChars_eq_self ?_ ?_
  · cases hhead : text.head? with
    | none => rfl
    | some c => exact hspace c (List.mem_of_head? hhead)
  · cases hlast : text.getLast? with
    | none => rfl
    | some c => exact hspace c (List.mem_of_getLast? hlast)

theorem Clean.zuluToOffset (h : Clean text) : Signals.zuluToOffset (String.ofList text) = String.ofList text := by
  have hkept : ∀ c ∈ text, (if c = 'Z' then "+00:00".toList else [c]) = [c] := by
    intro c hc
    refine if_neg ?_
    rintro rfl
    rcases h.2 _ hc with hdigit | hmark
    · exact absurd hdigit (by decide)
    · exact absurd hmark (by decide)
  have hchars : (String.ofList text).toList = text := String.toList_ofList
  rw [Signals.zuluToOffset, hchars, List.flatMap_congr hkept, List.flatMap_singleton']

theorem calendarInterval_clean (h : Clean text) : calendarInterval rt (.text (String.ofList text)) =
    (Datetime.ofText (String.ofList text)).elim (.ok (patternInterval rt text)) instantInterval := by
  have hchars : (String.ofList text).toList = text := String.toList_ofList
  have hne : text.isEmpty = false := List.isEmpty_eq_false_iff.mpr h.1
  unfold calendarInterval
  simp only [hchars, h.stripChars, hne, h.zuluToOffset, Bool.false_eq_true, if_false]
  cases Datetime.ofText (String.ofList text) <;> rfl

/-- What the ISO reader takes for a datetime without an offset is not resolved. -/
theorem calendarInterval_naive {wall : Int} (h : Clean text)
    (hread : fromisoformat (String.ofList text) = some (wall, none)) :
    calendarInterval rt (.text (String.ofList text)) = .ok none := by
  have hparsed : ∃ parsed, Datetime.ofText (String.ofList text) = some parsed ∧ parsed.offset = none := by
    rw [Datetime.ofText]
    split
    · rename_i hnone
      cases hnone.symm.trans hread
    · rename_i read hsome
      obtain rfl := Option.some.inj (hsome.symm.trans hread)
      exact ⟨_, rfl, rfl⟩
  obtain ⟨parsed, hparsed, hoffset⟩ := hparsed
  rw [calendarInterval_clean h, hparsed, Option.elim_some, instantInterval, if_pos hoffset]

theorem calendarInterval_pattern (h : Clean text) (hread : fromisoformat (String.ofList text) = none) :
    calendarInterval rt (.text (String.ofList text)) = .ok (patternInterval rt text) := by
  have hparsed : Datetime.ofText (String.ofList text) = none := by
    rw [Datetime.ofText]
    split
    · rfl
    · rename_i read hsome
      cases hsome.symm.trans hread
  rw [calendarInterval_clean h, hparsed, Option.elim_none]

end Clean

structure CalendarDate where
  year : Nat
  month : Nat
  day : Nat
  valid : isDate year month day

structure CalendarMonth where
  year : Nat
  month : Nat
  year_pos : 1 ≤ year
  year_lt : year < 10000
  month_pos : 1 ≤ month
  month_le : month ≤ 12

namespace CalendarDate
variable (date : CalendarDate)

/-- `y-mm-dd`. -/
def isoText : List Char := numeral 4 date.year ++ '-' :: (numeral 2 date.month ++ '-' :: numeral 2 date.day)

/-- `y-m-d`. -/
def dashText : List Char := numeral 4 date.year ++ '-' :: (unpadded date.month ++ '-' :: unpadded date.day)

/-- `y年m月d日`. -/
def unitText : List Char := numeral 4 date.year ++ '年' :: (unpadded date.month ++ '月' :: (unpadded date.day ++ ['日']))

def interval : CalendarInterval := dayInterval date.year date.month date.day

theorem bounds : 1 ≤ date.year ∧ date.year < 10000 ∧ 1 ≤ date.month ∧ date.month ≤ 12 ∧
    1 ≤ date.day ∧ date.day ≤ 31 := by
  have hlength := (daysInMonth_bounds (date.year : Int) date.month).2
  have hyear := date.valid.year_pos
  have hyear' := date.valid.year_le
  have hmonth := date.valid.month_pos
  have hmonth' := date.valid.month_le
  have hday := date.valid.day_pos
  have hday' := date.valid.day_le
  omega

end CalendarDate

namespace CalendarMonth
variable (month : CalendarMonth)

/-- `y-mm`. -/
def isoText : List Char := numeral 4 month.year ++ '-' :: numeral 2 month.month

/-- `y-m`. -/
def dashText : List Char := numeral 4 month.year ++ '-' :: unpadded month.month

/-- `y年m月`. -/
def unitText : List Char := numeral 4 month.year ++ '年' :: (unpadded month.month ++ ['月'])

def interval : CalendarInterval := monthInterval month.year month.month

end CalendarMonth

section Patterns
variable {rt : CalendarRuntime} {year month day : Nat} {monthText dayText last : List Char} {first second : Char}

theorem clean_of_written {rest : List Char}
    (hrest : ∀ c ∈ first :: rest, c.isDigit = true ∨ c = '-' ∨ c = '年' ∨ c = '月' ∨ c = '日') :
    Clean (numeral 4 year ++ first :: rest) := by
  refine ⟨by simp, fun c hc => ?_⟩
  rcases List.mem_append.mp hc with hc | hc
  · exact .inl (isDigit_of_mem_numeral hc)
  · exact hrest c hc

theorem clean_day (hm : Written month monthText) (hd : Written day dayText) (hunits : DayUnits first second last) :
    Clean (numeral 4 year ++ first :: (monthText ++ second :: (dayText ++ last))) := by
  refine clean_of_written fun c hc => ?_
  have hmonth := hm.isDigit c
  have hday := hd.isDigit c
  simp only [List.mem_cons, List.mem_append] at hc
  cases hunits with
  | dashes => grind
  | units => grind

theorem clean_month (hm : Written month monthText) (hunits : MonthUnits first last) :
    Clean (numeral 4 year ++ first :: (monthText ++ last)) := by
  refine clean_of_written fun c hc => ?_
  have hmonth := hm.isDigit c
  simp only [List.mem_cons, List.mem_append] at hc
  cases hunits with
  | dash => grind
  | units => grind

/-- What the patterns make of a day. -/
theorem patternInterval_day (date : CalendarDate) (hm : Written date.month monthText) (hd : Written date.day dayText)
    (hunits : DayUnits first second last) :
    patternInterval rt (numeral 4 date.year ++ first :: (monthText ++ second :: (dayText ++ last))) =
      if 1900 ≤ date.year ∧ date.year ≤ 2099 then some date.interval else none := by
  obtain ⟨hyear, hyear', hmonth, hmonth', hday, hday'⟩ := date.bounds
  split
  · rename_i hknown
    have hmatch := @fullmatch_day rt _ _ _ _ _ _ _ _ hknown ⟨hmonth, hmonth'⟩ ⟨hday, hday'⟩ hm hd hunits
    have hyearInt : intOf rt (numeral 4 date.year) = date.year := intOf_numeral hyear'
    rw [patternInterval, hmatch]
    simp only [List.getD_eq_getElem?_getD, List.getElem?_cons_zero, List.getElem?_cons_succ, Option.getD_some]
    rw [hyearInt, intOf_written rt hm, intOf_written rt hd, if_pos date.valid]
    rfl
  · rename_i hknown
    have hno : rt.tables.isDecimal first = false ∧ rt.tables.isDecimal second = false := by
      cases hunits with
      | dashes => exact ⟨not_decimal (.inl rfl), not_decimal (.inl rfl)⟩
      | units => exact ⟨not_decimal (by simp), not_decimal (by simp)⟩
    have hlength : last.length ≤ 1 := by cases hunits <;> simp
    refine patternInterval_eq_none hyear' hknown hno.1 fun taken htaken hinfix => ?_
    have hm' := hm.length
    have hd' := hd.length
    rcases infix_of_run htaken hno.2 hinfix with hbefore | hafter
    · exact hbefore.length_le.trans_lt (by omega)
    · exact hafter.length_le.trans_lt (by rw [List.length_append]; omega)

theorem patternInterval_month (month : CalendarMonth) (hm : Written month.month monthText)
    (hunits : MonthUnits first last) :
    patternInterval rt (numeral 4 month.year ++ first :: (monthText ++ last)) =
      if 1900 ≤ month.year ∧ month.year ≤ 2099 then some month.interval else none := by
  split
  · rename_i hknown
    have hday := @fullmatch_day_of_month rt month.year _ _ _ _ hm hunits
    have hmatch := @fullmatch_month rt _ _ _ _ _ hknown ⟨month.month_pos, month.month_le⟩ hm hunits
    have hyearInt : intOf rt (numeral 4 month.year) = month.year := intOf_numeral month.year_lt
    rw [patternInterval, hday, hmatch]
    simp only [List.getD_eq_getElem?_getD, List.getElem?_cons_zero, List.getElem?_cons_succ, Option.getD_some]
    rw [hyearInt, intOf_written rt hm]
    rfl
  · rename_i hknown
    have hno : rt.tables.isDecimal first = false := by
      cases hunits with
      | dash => exact not_decimal (.inl rfl)
      | units => exact not_decimal (by simp)
    have hlength : last.length ≤ 1 := by cases hunits <;> simp
    refine patternInterval_eq_none month.year_lt hknown hno fun taken _ hinfix => ?_
    have hm' := hm.length
    exact hinfix.length_le.trans_lt (by rw [List.length_append]; omega)

end Patterns

section Spellings
variable (rt : CalendarRuntime)

/-- A spelling is resolved to an interval. -/
def ReadAs (text : List Char) (interval : CalendarInterval) : Prop :=
  calendarInterval rt (.text (String.ofList text)) = .ok (some interval)

theorem readAs_of_pattern {text : List Char} {known : Prop} [Decidable known] {interval : CalendarInterval}
    (h : Clean text) (hread : fromisoformat (String.ofList text) = none)
    (hpattern : patternInterval rt text = if known then some interval else none) (interval' : CalendarInterval) :
    ReadAs rt text interval' ↔ known ∧ interval' = interval := by
  rw [ReadAs, calendarInterval_pattern h hread, hpattern]
  by_cases hknown : known
  · rw [if_pos hknown, Except.ok.injEq, Option.some.injEq, eq_comm]
    exact (and_iff_right hknown).symm
  · rw [if_neg hknown, Except.ok.injEq]
    exact iff_of_false nofun fun h => hknown h.1

/-- The padded spelling of a day is never resolved. -/
theorem not_readAs_iso (date : CalendarDate) (interval : CalendarInterval) : ¬ ReadAs rt date.isoText interval := by
  obtain ⟨-, -, -, hmonth, -, hday⟩ := date.bounds
  have hclean : Clean date.isoText := by
    have h := @clean_day date.year _ _ _ _ _ _ _ (written_padded (show date.month < 100 by omega))
      (written_padded (show date.day < 100 by omega)) .dashes
    rwa [List.append_nil] at h
  rw [ReadAs, calendarInterval_naive hclean (fromisoformat_iso date.valid)]
  nofun

theorem readAs_dash_iff (date : CalendarDate) (interval : CalendarInterval) : ReadAs rt date.dashText interval ↔
    ((1900 ≤ date.year ∧ date.year ≤ 2099) ∧ (date.month < 10 ∨ date.day < 10)) ∧ interval = date.interval := by
  obtain ⟨-, hyear, -, hmonth, -, hday⟩ := date.bounds
  have hmonth' : date.month < 100 := by omega
  have hday' : date.day < 100 := by omega
  by_cases hshort : date.month < 10 ∨ date.day < 10
  · have hm := written_unpadded hmonth'
    have hd := written_unpadded hday'
    have hclean := @clean_day date.year _ _ _ _ _ _ _ hm hd .dashes
    have hpattern := @patternInterval_day rt _ _ _ _ _ date hm hd .dashes
    rw [List.append_nil] at hclean hpattern
    rw [CalendarDate.dashText, readAs_of_pattern rt hclean (fromisoformat_unpadded hyear hmonth' hday' hshort) hpattern]
    exact and_congr_left' (and_iff_left hshort).symm
  · have hsame : date.dashText = date.isoText := by
      obtain ⟨hmonth₁, hday₁⟩ := not_or.mp hshort
      rw [CalendarDate.dashText, CalendarDate.isoText, unpadded_eq hmonth', unpadded_eq hday', if_neg hmonth₁,
        if_neg hday₁]
    rw [hsame]
    exact iff_of_false (not_readAs_iso rt date interval) fun h => hshort h.1.2

theorem readAs_unit_iff (date : CalendarDate) (interval : CalendarInterval) : ReadAs rt date.unitText interval ↔
    (1900 ≤ date.year ∧ date.year ≤ 2099) ∧ interval = date.interval := by
  obtain ⟨-, hyear, -, hmonth, -, hday⟩ := date.bounds
  have hm := written_unpadded (show date.month < 100 by omega)
  have hd := written_unpadded (show date.day < 100 by omega)
  exact readAs_of_pattern rt (clean_day hm hd .units) (fromisoformat_units hyear _)
    (patternInterval_day date hm hd .units) interval

theorem readAs_month_iff (month : CalendarMonth) (interval : CalendarInterval) :
    (ReadAs rt month.isoText interval ↔ (1900 ≤ month.year ∧ month.year ≤ 2099) ∧ interval = month.interval) ∧
      (ReadAs rt month.dashText interval ↔ (1900 ≤ month.year ∧ month.year ≤ 2099) ∧ interval = month.interval) ∧
      (ReadAs rt month.unitText interval ↔ (1900 ≤ month.year ∧ month.year ≤ 2099) ∧ interval = month.interval) := by
  have hmonth := month.month_le
  have hm := written_padded (show month.month < 100 by omega)
  have hm' := written_unpadded (show month.month < 100 by omega)
  have hdash {digits : List Char} (hm : Written month.month digits) :
      ReadAs rt (numeral 4 month.year ++ '-' :: digits) interval ↔
        (1900 ≤ month.year ∧ month.year ≤ 2099) ∧ interval = month.interval := by
    have hclean := @clean_month month.year _ _ _ _ hm .dash
    have hpattern := @patternInterval_month rt _ _ _ month hm .dash
    rw [List.append_nil] at hclean hpattern
    exact readAs_of_pattern rt hclean (fromisoformat_month month.year_lt hm) hpattern interval
  exact ⟨hdash hm, hdash hm', readAs_of_pattern rt (clean_month hm' .units) (fromisoformat_units month.year_lt _)
    (patternInterval_month month hm' .units) interval⟩

/-- The three spellings of a day are read as one interval. -/
def AgreesOnDay (date : CalendarDate) : Prop :=
  ∃ interval, ReadAs rt date.isoText interval ∧ ReadAs rt date.dashText interval ∧ ReadAs rt date.unitText interval

/-- The three spellings of a month are read as one interval. -/
def AgreesOnMonth (month : CalendarMonth) : Prop :=
  ∃ interval, ReadAs rt month.isoText interval ∧ ReadAs rt month.dashText interval ∧ ReadAs rt month.unitText interval

/-- No day is read alike in its three spellings: the padded one is lost to the ISO reader, and so is the other one with
dashes where it is the same. The spellings of a month agree in the years that the patterns know. -/
theorem calendar_spellings_iff :
    (∀ date : CalendarDate, ¬ AgreesOnDay rt date ∧ ¬ ReadAs rt date.isoText date.interval ∧
      (ReadAs rt date.dashText date.interval ↔
        (1900 ≤ date.year ∧ date.year ≤ 2099) ∧ (date.month < 10 ∨ date.day < 10)) ∧
      (ReadAs rt date.unitText date.interval ↔ 1900 ≤ date.year ∧ date.year ≤ 2099)) ∧
      (∀ month : CalendarMonth, AgreesOnMonth rt month ↔ 1900 ≤ month.year ∧ month.year ≤ 2099) ∧
      ∀ value interval, calendarInterval rt value = .ok (some interval) → interval.Ordered := by
  refine ⟨fun date => ⟨?_, not_readAs_iso rt date _, ?_, ?_⟩, fun month => ?_, fun _ _ => calendarInterval_ordered⟩
  · rintro ⟨interval, hiso, -⟩
    exact not_readAs_iso rt date interval hiso
  · rw [readAs_dash_iff]
    exact and_iff_left rfl
  · rw [readAs_unit_iff]
    exact and_iff_left rfl
  · constructor
    · rintro ⟨interval, hiso, -⟩
      exact ((readAs_month_iff rt month interval).1.mp hiso).1
    · intro hknown
      have hread := readAs_month_iff rt month month.interval
      exact ⟨month.interval, hread.1.mpr ⟨hknown, rfl⟩, hread.2.1.mpr ⟨hknown, rfl⟩, hread.2.2.mpr ⟨hknown, rfl⟩⟩

end Spellings

theorem plainDigit_lt (c : Char) (h : plainTables.isDecimal c = true) : c.toNat - 48 < 10 := by
  have hrange : 48 ≤ c.toNat ∧ c.toNat ≤ 57 := by
    have hdigit : c.isDigit = true := h
    simpa [Char.isDigit, UInt32.le_iff_toNat_le] using hdigit
  omega

theorem plainSeparators :
    ∀ c ∈ ['-', '年', '月', '日'], plainTables.isDecimal c = false ∧ plainTables.isSpace c = false := by
  simp only [List.forall_mem_cons, List.not_mem_nil, false_imp_iff, implies_true, and_true]
  decide

theorem plainNotSpace (c : Char) (h : c.isDigit = true) : plainTables.isSpace c = false :=
  decide_eq_false (digit_not_mark h (by decide))

/-- ASCII digits only. -/
def plainCalendarRuntime : CalendarRuntime where
  tables := plainTables
  digit c := c.toNat - 48
  digit_lt := plainDigit_lt
  ascii _ h := ⟨h, rfl⟩
  separators := plainSeparators
  notSpace := plainNotSpace

/-- One day, spelled in three ways. -/
theorem padded_day_unresolved :
    calendarInterval plainCalendarRuntime (.text "2026-02-05") = .ok none ∧
      calendarInterval plainCalendarRuntime (.text "2026-2-5") =
        .ok (some ⟨"2026-02-05T00:00:00Z", "2026-02-05T23:59:59.999999Z", .day⟩) ∧
      calendarInterval plainCalendarRuntime (.text "2026年2月5日") =
        .ok (some ⟨"2026-02-05T00:00:00Z", "2026-02-05T23:59:59.999999Z", .day⟩) := by
  decide
end StockContent.Knowledge
