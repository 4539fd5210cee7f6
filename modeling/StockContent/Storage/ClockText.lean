import Mathlib.Data.String.Basic
import Mathlib.Tactic.Tauto
import StockContent.Storage.Clock

/-! Numerals of one width compare as their numbers, and texts that start with them compare by them first. -/
namespace StockContent.Storage

section Append
variable {A : Type} [LinearOrder A]

/-- Where the starts have one length, they decide unless they are equal. -/
theorem append_lt_append_iff {xs ys rest rest' : List A} (hlength : xs.length = ys.length) :
    xs ++ rest < ys ++ rest' ↔ xs < ys ∨ xs = ys ∧ rest < rest' := by
  induction xs generalizing ys with
  | nil =>
    cases ys with
    | nil => simp
    | cons y ys => cases hlength
  | cons x xs ih =>
    cases ys with
    | nil => cases hlength
    | cons y ys =>
      rw [List.cons_append, List.cons_append, List.cons_lt_cons_iff, List.cons_lt_cons_iff, ih (Nat.succ.inj hlength),
        List.cons.injEq]
      tauto

end Append

section Numeral

/-- A number in as many decimal digits as asked for. -/
def numeral : Nat → Nat → List Char
  | 0, _ => []
  | width + 1, n => numeral width (n / 10) ++ [Nat.digitChar (n % 10)]

@[simp] theorem length_numeral (width n : Nat) : (numeral width n).length = width := by
  induction width generalizing n with
  | zero => rfl
  | succ width ih => rw [numeral, List.length_append, ih, List.length_singleton]

theorem digitChar_lt_iff {a b : Nat} (ha : a < 10) (hb : b < 10) : Nat.digitChar a < Nat.digitChar b ↔ a < b := by
  have hcheck : ∀ x : Fin 10, ∀ y : Fin 10, Nat.digitChar x < Nat.digitChar y ↔ x.val < y.val := by decide
  exact hcheck ⟨a, ha⟩ ⟨b, hb⟩

theorem digitChar_inj {a b : Nat} (ha : a < 10) (hb : b < 10) : Nat.digitChar a = Nat.digitChar b ↔ a = b := by
  constructor
  · intro h
    rcases Nat.lt_trichotomy a b with hlt | heq | hlt
    · exact absurd ((digitChar_lt_iff ha hb).mpr hlt) (h ▸ lt_irrefl _)
    · exact heq
    · exact absurd ((digitChar_lt_iff hb ha).mpr hlt) (h ▸ lt_irrefl _)
  · rintro rfl
    rfl

theorem numeral_inj {width n m : Nat} (hn : n < 10 ^ width) (hm : m < 10 ^ width) :
    numeral width n = numeral width m ↔ n = m := by
  induction width generalizing n m with
  | zero => exact iff_of_true rfl (by omega)
  | succ width ih =>
    rw [Nat.pow_succ] at hn hm
    have hn' : n / 10 < 10 ^ width := Nat.div_lt_of_lt_mul (by omega)
    have hm' : m / 10 < 10 ^ width := Nat.div_lt_of_lt_mul (by omega)
    rw [numeral, numeral, ← List.concat_eq_append, ← List.concat_eq_append, List.concat_inj, ih hn' hm',
      digitChar_inj (Nat.mod_lt _ (by decide)) (Nat.mod_lt _ (by decide))]
    omega

theorem numeral_lt_iff {width n m : Nat} (hn : n < 10 ^ width) (hm : m < 10 ^ width) :
    numeral width n < numeral width m ↔ n < m := by
  induction width generalizing n m with
  | zero => exact iff_of_false (List.not_lt_nil _) (by omega)
  | succ width ih =>
    rw [Nat.pow_succ] at hn hm
    have hn' : n / 10 < 10 ^ width := Nat.div_lt_of_lt_mul (by omega)
    have hm' : m / 10 < 10 ^ width := Nat.div_lt_of_lt_mul (by omega)
    rw [numeral, numeral, append_lt_append_iff (by simp), ih hn' hm', numeral_inj hn' hm', List.cons_lt_cons_iff,
      digitChar_lt_iff (Nat.mod_lt _ (by decide)) (Nat.mod_lt _ (by decide))]
    simp only [List.not_lt_nil, and_false, or_false]
    omega

/-- Leading zeros and all, a padded number is a numeral. -/
theorem toList_padded {width n : Nat} (hwidth : 0 < width) (hn : n < 10 ^ width) :
    (padded width n).toList = numeral width n := by
  rw [padded, String.toList_ofList]
  induction width generalizing n with
  | zero => cases hwidth
  | succ width ih =>
    rcases Nat.eq_zero_or_pos width with rfl | hpos
    · have hsmall : n < 10 := by simpa using hn
      rw [Nat.toDigits_of_lt_base hsmall, numeral, numeral, Nat.mod_eq_of_lt hsmall]
      rfl
    · rw [Nat.pow_succ] at hn
      have hn' : n / 10 < 10 ^ width := Nat.div_lt_of_lt_mul (by omega)
      rw [numeral, ← ih hpos hn', Nat.toDigits_eq_if (by decide)]
      split
      · rename_i hsmall
        -- The shorter numeral is that of zero, which is written with a digit of its own.
        obtain ⟨rest, rfl⟩ := Nat.exists_eq_succ_of_ne_zero hpos.ne'
        rw [Nat.div_eq_of_lt hsmall, Nat.mod_eq_of_lt hsmall, Nat.toDigits_zero]
        simp [List.replicate_succ', List.append_assoc]
      · rw [List.length_append, List.length_singleton, Nat.add_sub_add_right, List.append_assoc]

end Numeral

/-! The calendar and the clock in fixed-width numerals: texts of seconds compare as the seconds do. -/

section Calendar

/-- The year of a day of an era of four hundred years, and the day that is its first. -/
def yearOfEra (dayOfEra : Int) : Int :=
  (dayOfEra - dayOfEra / 1460 + dayOfEra / 36524 - dayOfEra / 146096) / 365

def yearStart (year : Int) : Int := 365 * year + year / 4 - year / 100

theorem yearOfEra_le {d d' : Int} (h₀ : 0 ≤ d) (h : d ≤ d') (h₁ : d' < 146097) : yearOfEra d ≤ yearOfEra d' := by
  -- Without its leap days a day counts no less than an earlier one.
  have hleap : d - d / 1460 ≤ d' - d' / 1460 := by omega
  have hcentury : d / 36524 - d / 146096 ≤ d' / 36524 - d' / 146096 := by omega
  exact Int.ediv_le_ediv (by decide) (by omega)

theorem yearOfEra_bounds {d : Int} (h₀ : 0 ≤ d) (h₁ : d < 146097) : 0 ≤ yearOfEra d ∧ yearOfEra d ≤ 399 := by
  unfold yearOfEra
  omega

theorem centuryOfEra {d : Int} (h₀ : 0 ≤ d) (h₁ : d < 146097) : yearOfEra d / 100 = d / 36524 - d / 146096 := by
  have hcentury : d / 36524 = 0 ∨ d / 36524 = 1 ∨ d / 36524 = 2 ∨ d / 36524 = 3 ∨ d / 36524 = 4 := by omega
  unfold yearOfEra
  rcases hcentury with hc | hc | hc | hc | hc <;> omega

theorem yearStart_le {d : Int} (h₀ : 0 ≤ d) (h₁ : d < 146097) : yearStart (yearOfEra d) ≤ d := by
  rw [yearStart, centuryOfEra h₀ h₁]
  unfold yearOfEra
  omega

theorem lt_yearStart {d : Int} (h₀ : 0 ≤ d) (h₁ : d < 146097) : d ≤ yearStart (yearOfEra d) + 366 := by
  rw [yearStart, centuryOfEra h₀ h₁]
  unfold yearOfEra
  omega

def dayOfYear (d : Int) : Int := d - yearStart (yearOfEra d)

/-- Months are counted from March. -/
def shiftedMonth (day : Int) : Int := (5 * dayOfYear ((day + 719468) % 146097) + 2) / 153

/-- The month as a number that goes on over the years. -/
def monthIndex (day : Int) : Int :=
  12 * (yearOfEra ((day + 719468) % 146097) + 400 * ((day + 719468) / 146097)) + shiftedMonth day + 3

theorem dayOfYear_bounds {d : Int} (h₀ : 0 ≤ d) (h₁ : d < 146097) : 0 ≤ dayOfYear d ∧ dayOfYear d ≤ 366 := by
  have hstart := yearStart_le h₀ h₁
  have hend := lt_yearStart h₀ h₁
  unfold dayOfYear
  omega

theorem dayOfEra_bounds (day : Int) : 0 ≤ (day + 719468) % 146097 ∧ (day + 719468) % 146097 < 146097 := by omega

theorem shiftedMonth_bounds (day : Int) : 0 ≤ shiftedMonth day ∧ shiftedMonth day ≤ 11 := by
  obtain ⟨h₀, h₁⟩ := dayOfEra_bounds day
  have hyear := dayOfYear_bounds h₀ h₁
  unfold shiftedMonth
  omega

theorem civilDate_day (day : Int) : (civilDate day).2.2 =
    dayOfYear ((day + 719468) % 146097) - (153 * shiftedMonth day + 2) / 5 + 1 := rfl

theorem civilDate_month (day : Int) :
    (civilDate day).2.1 = if shiftedMonth day < 10 then shiftedMonth day + 3 else shiftedMonth day - 9 := rfl

theorem civilDate_year (day : Int) : (civilDate day).1 =
    yearOfEra ((day + 719468) % 146097) + (day + 719468) / 146097 * 400 +
      if (civilDate day).2.1 ≤ 2 then 1 else 0 := rfl

theorem civilDate_monthIndex (day : Int) : 12 * (civilDate day).1 + (civilDate day).2.1 = monthIndex day ∧
    1 ≤ (civilDate day).2.1 ∧ (civilDate day).2.1 ≤ 12 := by
  have hmonth := shiftedMonth_bounds day
  rw [civilDate_year, civilDate_month, monthIndex]
  split <;> split <;> omega

theorem civilDate_day_bounds (day : Int) : 1 ≤ (civilDate day).2.2 ∧ (civilDate day).2.2 ≤ 31 := by
  obtain ⟨h₀, h₁⟩ := dayOfEra_bounds day
  have hyear := dayOfYear_bounds h₀ h₁
  rw [civilDate_day]
  unfold shiftedMonth
  omega

/-- Within a year: by month, in one month by its day. -/
theorem monthOfYear_lt {n n' : Int} (h : n < n') :
    (5 * n + 2) / 153 < (5 * n' + 2) / 153 ∨ (5 * n + 2) / 153 = (5 * n' + 2) / 153 ∧
      n - (153 * ((5 * n + 2) / 153) + 2) / 5 < n' - (153 * ((5 * n' + 2) / 153) + 2) / 5 := by
  have hle : (5 * n + 2) / 153 ≤ (5 * n' + 2) / 153 := by omega
  rcases Int.lt_or_eq_of_le hle with hlt | heq
  · exact .inl hlt
  · rw [heq]
    exact .inr ⟨rfl, by omega⟩

/-- Later days have later dates. -/
theorem monthIndex_lt {day day' : Int} (h : day < day') : monthIndex day < monthIndex day' ∨
    monthIndex day = monthIndex day' ∧ (civilDate day).2.2 < (civilDate day').2.2 := by
  obtain ⟨h₀, h₁⟩ := dayOfEra_bounds day
  obtain ⟨h₀', h₁'⟩ := dayOfEra_bounds day'
  have hmonth := shiftedMonth_bounds day
  have hmonth' := shiftedMonth_bounds day'
  have hyear := yearOfEra_bounds h₀ h₁
  have hyear' := yearOfEra_bounds h₀' h₁'
  rw [civilDate_day, civilDate_day, monthIndex, monthIndex]
  rcases Int.lt_or_eq_of_le (show (day + 719468) / 146097 ≤ (day' + 719468) / 146097 by omega) with hera | hera
  · exact .inl (by omega)
  · -- In one era: by year, in one year by the day of the year.
    have hle := yearOfEra_le h₀ (show (day + 719468) % 146097 ≤ (day' + 719468) % 146097 by omega) h₁'
    rcases Int.lt_or_eq_of_le hle with hlt | heq
    · exact .inl (by omega)
    · have hday : dayOfYear ((day + 719468) % 146097) < dayOfYear ((day' + 719468) % 146097) := by
        unfold dayOfYear
        rw [heq]
        omega
      rw [hera, heq]
      refine (monthOfYear_lt hday).imp (fun hlt => ?_) (fun heq => ?_)
      · exact Int.add_lt_add_right (Int.add_lt_add_left hlt _) 3
      · exact ⟨by rw [shiftedMonth, shiftedMonth, heq.1], Int.add_lt_add_right heq.2 1⟩

/-- The seconds of the years from 1 to 9999. -/
def inYears (second : Int) : Prop := -62135596800 ≤ second ∧ second < 253402300800

instance (second : Int) : Decidable (inYears second) := inferInstanceAs (Decidable (_ ∧ _))

theorem civilDate_year_bounds {second : Int} (h : inYears second) :
    1 ≤ (civilDate (second / 86400)).1 ∧ (civilDate (second / 86400)).1 ≤ 9999 := by
  obtain ⟨h₀, h₁⟩ := h
  obtain ⟨hindex, hmonth⟩ := civilDate_monthIndex (second / 86400)
  have hfirst : monthIndex (-719162) = 13 := by decide
  have hlast : monthIndex 2932896 = 120000 := by decide
  constructor
  · rcases Int.lt_or_eq_of_le (show -719162 ≤ second / 86400 by omega) with hlt | heq
    · have hle := monthIndex_lt hlt
      omega
    · rw [heq] at hfirst
      omega
  · rcases Int.lt_or_eq_of_le (show second / 86400 ≤ 2932896 by omega) with hlt | heq
    · have hle := monthIndex_lt hlt
      omega
    · rw [← heq] at hlast
      omega

end Calendar

section Clock

def dateText (day : Int) : List Char :=
  numeral 4 (civilDate day).1.toNat ++ '-' :: (numeral 2 (civilDate day).2.1.toNat ++ '-' ::
    numeral 2 (civilDate day).2.2.toNat)

def timeText (ofDay : Nat) : List Char :=
  numeral 2 (ofDay / 3600) ++ ':' :: (numeral 2 (ofDay / 60 % 60) ++ ':' :: numeral 2 (ofDay % 60))

/-- `YYYY-MM-DDTHH:MM:SS` of a second since 1970. -/
def secondText (second : Int) : List Char :=
  dateText (second / 86400) ++ 'T' :: timeText (second % 86400).toNat

@[simp] theorem length_secondText (second : Int) : (secondText second).length = 19 := by
  simp [secondText, dateText, timeText]

theorem numeral_append_lt {width n m : Nat} (hn : n < 10 ^ width) (hm : m < 10 ^ width) {c : Char}
    {rest rest' : List Char} (h : n < m ∨ n = m ∧ rest < rest') :
    numeral width n ++ c :: rest < numeral width m ++ c :: rest' := by
  rw [append_lt_append_iff (by simp), numeral_lt_iff hn hm, numeral_inj hn hm, List.cons_lt_cons_iff]
  exact h.imp_right (And.imp_right fun hrest => .inr ⟨rfl, hrest⟩)

theorem dateText_lt {day day' : Int} (h₀ : -719162 ≤ day) (h : day < day') (h₁ : day' < 2932897) :
    dateText day < dateText day' := by
  obtain ⟨hyear, hyear'⟩ := @civilDate_year_bounds (86400 * day) ⟨by omega, by omega⟩
  obtain ⟨hlater, hlater'⟩ := @civilDate_year_bounds (86400 * day') ⟨by omega, by omega⟩
  rw [Int.mul_ediv_cancel_left _ (by decide)] at hyear hyear' hlater hlater'
  obtain ⟨hindex, hmonth, hmonth'⟩ := civilDate_monthIndex day
  obtain ⟨hindex', hnext, hnext'⟩ := civilDate_monthIndex day'
  obtain ⟨hday, hday'⟩ := civilDate_day_bounds day
  obtain ⟨hthen, hthen'⟩ := civilDate_day_bounds day'
  have hlt := monthIndex_lt h
  have hdate : (civilDate day).1.toNat < (civilDate day').1.toNat ∨
      (civilDate day).1.toNat = (civilDate day').1.toNat ∧
        ((civilDate day).2.1.toNat < (civilDate day').2.1.toNat ∨
          (civilDate day).2.1.toNat = (civilDate day').2.1.toNat ∧
            (civilDate day).2.2.toNat < (civilDate day').2.2.toNat) := by omega
  refine numeral_append_lt (by omega) (by omega) (hdate.imp_right (And.imp_right fun hmonth => ?_))
  refine numeral_append_lt (by omega) (by omega) (hmonth.imp_right (And.imp_right fun hday => ?_))
  exact (numeral_lt_iff (by omega) (by omega)).mpr hday

theorem timeText_lt {n m : Nat} (h : n < m) (hm : m < 86400) : timeText n < timeText m := by
  have hfields : n / 3600 < m / 3600 ∨ n / 3600 = m / 3600 ∧
      (n / 60 % 60 < m / 60 % 60 ∨ n / 60 % 60 = m / 60 % 60 ∧ n % 60 < m % 60) := by omega
  refine numeral_append_lt (by omega) (by omega) (hfields.imp_right (And.imp_right fun hminute => ?_))
  refine numeral_append_lt (by omega) (by omega) (hminute.imp_right (And.imp_right fun hsecond => ?_))
  exact (numeral_lt_iff (by omega) (by omega)).mpr hsecond

/-- A later second has a later text. -/
theorem secondText_lt {s s' : Int} (hs : inYears s) (hs' : inYears s') (h : s < s') : secondText s < secondText s' := by
  obtain ⟨h₀, -⟩ := hs
  obtain ⟨-, h₁⟩ := hs'
  rw [secondText, secondText, append_lt_append_iff (by simp [dateText])]
  rcases Int.lt_or_eq_of_le (show s / 86400 ≤ s' / 86400 by omega) with hlt | heq
  · exact .inl (dateText_lt (by omega) hlt (by omega))
  · rw [heq, List.cons_lt_cons_iff]
    exact .inr ⟨rfl, .inr ⟨rfl, timeText_lt (by omega) (by omega)⟩⟩

end Clock
end StockContent.Storage
