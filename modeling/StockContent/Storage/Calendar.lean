import StockContent.Storage.ClockText

/-! The days of the calendar: a date and its number are each other's inverse, and later dates have greater numbers. -/
namespace StockContent.Storage

section Months

def isLeap (year : Int) : Prop := year % 4 = 0 ∧ (year % 100 ≠ 0 ∨ year % 400 = 0)

instance (year : Int) : Decidable (isLeap year) := inferInstanceAs (Decidable (_ ∧ _))

/-- `monthrange(year, month)[1]`. -/
def daysInMonth (year month : Int) : Int :=
  if month = 2 then (if isLeap year then 29 else 28)
  else if month = 4 ∨ month = 6 ∨ month = 9 ∨ month = 11 then 30 else 31

/-- What `date(year, month, day)` accepts. -/
structure isDate (year month day : Int) : Prop where
  year_pos : 1 ≤ year
  year_le : year ≤ 9999
  month_pos : 1 ≤ month
  month_le : month ≤ 12
  day_pos : 1 ≤ day
  day_le : day ≤ daysInMonth year month

instance (year month day : Int) : Decidable (isDate year month day) :=
  decidable_of_iff (1 ≤ year ∧ year ≤ 9999 ∧ 1 ≤ month ∧ month ≤ 12 ∧ 1 ≤ day ∧ day ≤ daysInMonth year month)
    ⟨fun h => ⟨h.1, h.2.1, h.2.2.1, h.2.2.2.1, h.2.2.2.2.1, h.2.2.2.2.2⟩,
      fun h => ⟨h.year_pos, h.year_le, h.month_pos, h.month_le, h.day_pos, h.day_le⟩⟩

theorem daysInMonth_bounds (year month : Int) : 28 ≤ daysInMonth year month ∧ daysInMonth year month ≤ 31 := by
  unfold daysInMonth
  split
  · split <;> omega
  · split <;> omega

end Months

section Number

/-- Days from 1970-01-01 on; the year is taken to start in March, so that a leap day is its last. -/
def dayNumber (year month day : Int) : Int :=
  let marchYear := if month ≤ 2 then year - 1 else year
  let shifted := if month ≤ 2 then month + 9 else month - 3
  365 * marchYear + marchYear / 4 - marchYear / 100 + marchYear / 400 + (153 * shifted + 2) / 5 + day - 719469

/-- The day that is numbered, as the calendar has it. -/
theorem dayNumber_civilDate (n : Int) :
    dayNumber (civilDate n).1 (civilDate n).2.1 (civilDate n).2.2 = n := by
  obtain ⟨h₀, h₁⟩ := dayOfEra_bounds n
  have hyear := yearOfEra_bounds h₀ h₁
  have hmonth := shiftedMonth_bounds n
  have hsplit : 146097 * ((n + 719468) / 146097) + (n + 719468) % 146097 = n + 719468 := Int.mul_ediv_add_emod _ _
  rw [dayNumber, civilDate_year, civilDate_day, civilDate_month, dayOfYear, yearStart]
  generalize yearOfEra ((n + 719468) % 146097) = year at *
  generalize shiftedMonth n = shifted at *
  generalize (n + 719468) / 146097 = era at *
  generalize (n + 719468) % 146097 = dayOfEra at *
  by_cases hlate : shifted < 10
  · rw [if_pos hlate, if_neg (show ¬ shifted + 3 ≤ 2 by omega), if_neg (show ¬ shifted + 3 ≤ 2 by omega)]
    omega
  · rw [if_neg hlate, if_pos (show shifted - 9 ≤ 2 by omega), if_pos (show shifted - 9 ≤ 2 by omega)]
    omega

/-- A year has more than 365 days only if the leap day at its end is one of them. -/
theorem dayOfYear_le {d : Int} (h₀ : 0 ≤ d) (h₁ : d < 146097) :
    dayOfYear d ≤ 364 ∨ dayOfYear d = 365 ∧ isLeap (yearOfEra d + 1) := by
  have hyear := yearOfEra_bounds h₀ h₁
  have hcentury := centuryOfEra h₀ h₁
  rw [dayOfYear, yearStart, isLeap]
  have hdays : yearOfEra d = (d - d / 1460 + d / 36524 - d / 146096) / 365 := rfl
  generalize yearOfEra d = year at hyear hcentury hdays ⊢
  by_cases hlast : d = 146096
  · rw [hlast] at hdays hcentury ⊢
    omega
  · have hera : d / 146096 = 0 := by omega
    have hc : d / 36524 = 0 ∨ d / 36524 = 1 ∨ d / 36524 = 2 ∨ d / 36524 = 3 := by omega
    rw [hera] at hdays hcentury
    have hfour : d / 1460 ≤ year / 4 + 1 := by
      rcases hc with hc | hc | hc | hc <;> rw [hc] at hdays <;> omega
    by_cases hshort : d - (365 * year + year / 4 - year / 100) ≤ 364
    · exact .inl hshort
    · have hlate : d / 1460 = year / 4 + 1 := by
        rcases hc with hc | hc | hc | hc <;> rw [hc] at hdays hcentury <;> omega
      have hfourth : year % 4 = 3 := by
        rcases hc with hc | hc | hc | hc <;> rw [hc] at hdays hcentury <;> omega
      refine .inr ⟨?_, ?_, .inl ?_⟩
      · rcases hc with hc | hc | hc | hc <;> rw [hc] at hdays hcentury <;> omega
      · omega
      · rcases hc with hc | hc | hc | hc <;> rw [hc] at hdays hcentury <;> omega

theorem civilDate_day_le (n : Int) : (civilDate n).2.2 ≤ daysInMonth (civilDate n).1 (civilDate n).2.1 := by
  obtain ⟨h₀, h₁⟩ := dayOfEra_bounds n
  have hlength := dayOfYear_le h₀ h₁
  have hdays := dayOfYear_bounds h₀ h₁
  have hyear := yearOfEra_bounds h₀ h₁
  have hshifted : shiftedMonth n = (5 * dayOfYear ((n + 719468) % 146097) + 2) / 153 := rfl
  have hmonth := shiftedMonth_bounds n
  rw [civilDate_year, civilDate_day, civilDate_month, daysInMonth]
  have hperiod (year era : Int) : isLeap (year + era * 400 + 1) ↔ isLeap (year + 1) := by
    unfold isLeap
    omega
  generalize yearOfEra ((n + 719468) % 146097) = year at *
  generalize dayOfYear ((n + 719468) % 146097) = day at *
  generalize shiftedMonth n = shifted at *
  generalize (n + 719468) / 146097 = era at *
  have hcases : shifted = 11 ∨ shifted = 10 ∨ shifted < 10 := by omega
  rcases hcases with rfl | rfl | hlate
  · -- February comes last, and is as long as the year lets it be.
    have hmonth : (if (11 : Int) < 10 then (11 : Int) + 3 else 11 - 9) = 2 := by decide
    rw [hmonth, if_pos rfl, if_pos (show (2 : Int) ≤ 2 from le_rfl)]
    by_cases hleap : isLeap (year + 1)
    · rw [if_pos ((hperiod year era).mpr hleap)]
      omega
    · have hshort : day ≤ 364 := hlength.resolve_right fun h => hleap h.2
      rw [if_neg fun h => hleap ((hperiod year era).mp h)]
      omega
  · have hmonth : (if (10 : Int) < 10 then (10 : Int) + 3 else 10 - 9) = 1 := by decide
    rw [hmonth, if_neg (show ¬ (1 : Int) = 2 by decide), if_neg (by decide)]
    omega
  · rw [if_pos hlate, if_neg (show ¬ shifted + 3 = 2 by omega)]
    split <;> omega

/-- Every day of the years from 1 to 9999 is a date. -/
theorem civilDate_isDate {second : Int} (h : inYears second) :
    isDate (civilDate (second / 86400)).1 (civilDate (second / 86400)).2.1 (civilDate (second / 86400)).2.2 where
  year_pos := (civilDate_year_bounds h).1
  year_le := (civilDate_year_bounds h).2
  month_pos := (civilDate_monthIndex _).2.1
  month_le := (civilDate_monthIndex _).2.2
  day_pos := (civilDate_day_bounds _).1
  day_le := civilDate_day_le _

end Number

section Order

/-- The first day of a month; months are counted on over the years. -/
def monthStart (month : Int) : Int := dayNumber (month / 12) (month % 12 + 1) 1

def monthLength (month : Int) : Int := daysInMonth (month / 12) (month % 12 + 1)

theorem dayNumber_eq {year month day : Int} (h₁ : 1 ≤ month) (h₂ : month ≤ 12) :
    dayNumber year month day = monthStart (12 * year + (month - 1)) + (day - 1) := by
  have hyear : (12 * year + (month - 1)) / 12 = year := by omega
  have hmonth : (12 * year + (month - 1)) % 12 + 1 = month := by omega
  rw [monthStart, hyear, hmonth, dayNumber, dayNumber]
  omega

theorem dayNumber_nextMonth {year month : Int} (h₁ : 1 ≤ month) (h₂ : month < 12) :
    dayNumber year (month + 1) 1 = dayNumber year month 1 + daysInMonth year month := by
  rcases lt_trichotomy month 2 with hmonth | rfl | hmonth
  · obtain rfl : month = 1 := by omega
    simp [dayNumber, daysInMonth]
    omega
  · have hleap : isLeap year ↔ year / 4 - year / 100 + year / 400 =
        (year - 1) / 4 - (year - 1) / 100 + (year - 1) / 400 + 1 := by
      unfold isLeap
      omega
    simp only [dayNumber, daysInMonth]
    by_cases h : isLeap year
    · have hyear := hleap.mp h
      simp [h]
      omega
    · have hyear := mt hleap.mpr h
      simp [h]
      omega
  · have hcases : month = 3 ∨ month = 4 ∨ month = 5 ∨ month = 6 ∨ month = 7 ∨ month = 8 ∨ month = 9 ∨ month = 10 ∨
        month = 11 := by omega
    rcases hcases with rfl | rfl | rfl | rfl | rfl | rfl | rfl | rfl | rfl <;> simp [dayNumber, daysInMonth] <;> omega

theorem dayNumber_nextYear (year : Int) : dayNumber (year + 1) 1 1 = dayNumber year 12 1 + 31 := by
  simp [dayNumber]
  omega

theorem monthStart_succ (month : Int) : monthStart (month + 1) = monthStart month + monthLength month := by
  rw [monthLength, monthStart, monthStart]
  by_cases hlast : month % 12 = 11
  · rw [show (month + 1) / 12 = month / 12 + 1 by omega, show (month + 1) % 12 + 1 = 1 by omega, hlast]
    exact dayNumber_nextYear (month / 12)
  · rw [show (month + 1) / 12 = month / 12 by omega, show (month + 1) % 12 = month % 12 + 1 by omega]
    exact dayNumber_nextMonth (by omega) (by omega)

theorem monthStart_add_length_le {month month' : Int} (h : month < month') :
    monthStart month + monthLength month ≤ monthStart month' := by
  induction month', h using Int.leInduction with
  | base => exact (monthStart_succ month).ge
  | succ month' _ ih =>
    have hlength : 28 ≤ monthLength month' := (daysInMonth_bounds _ _).1
    rw [monthStart_succ]
    omega

/-- Dates are numbered in their order. -/
theorem dayNumber_lt {year month day year' month' day' : Int} (h : isDate year month day) (h' : isDate year' month' day')
    (hlt : 12 * year + month < 12 * year' + month' ∨ 12 * year + month = 12 * year' + month' ∧ day < day') :
    dayNumber year month day < dayNumber year' month' day' := by
  have hlength : day ≤ monthLength (12 * year + (month - 1)) := by
    have hfirst := h.month_pos
    have hlast := h.month_le
    rw [monthLength, show (12 * year + (month - 1)) / 12 = year by omega,
      show (12 * year + (month - 1)) % 12 + 1 = month by omega]
    exact h.day_le
  have hday := h.day_pos
  have hday' := h'.day_pos
  rw [dayNumber_eq h.month_pos h.month_le, dayNumber_eq h'.month_pos h'.month_le]
  rcases hlt with hlt | ⟨heq, hlt⟩
  · have hstart := @monthStart_add_length_le (12 * year + (month - 1)) (12 * year' + (month' - 1)) (by omega)
    omega
  · rw [show 12 * year + (month - 1) = 12 * year' + (month' - 1) by omega]
    omega

theorem dayNumber_bounds {year month day : Int} (h : isDate year month day) :
    -719162 ≤ dayNumber year month day ∧ dayNumber year month day ≤ 2932896 := by
  have hfirst : dayNumber 1 1 1 = -719162 := by decide
  have hlast : dayNumber 9999 12 31 = 2932896 := by decide
  have hyear := h.year_pos
  have hyear' := h.year_le
  have hmonth := h.month_pos
  have hmonth' := h.month_le
  have hday := h.day_pos
  have hday' := h.day_le
  have hlength := (daysInMonth_bounds year month).2
  constructor
  · by_cases heq : 12 * year + month = 13 ∧ day = 1
    · obtain ⟨rfl, rfl, rfl⟩ : year = 1 ∧ month = 1 ∧ day = 1 := by omega
      exact hfirst.ge
    · have hlt := @dayNumber_lt 1 1 1 year month day (by decide) h (by omega)
      omega
  · by_cases heq : 12 * year + month = 120000 ∧ day = 31
    · obtain ⟨rfl, rfl, rfl⟩ : year = 9999 ∧ month = 12 ∧ day = 31 := by omega
      exact hlast.le
    · have hlt := @dayNumber_lt year month day 9999 12 31 h (by decide) (by omega)
      omega

end Order
end StockContent.Storage
