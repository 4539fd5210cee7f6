import StockContent.Storage.Calendar
import StockContent.Storage.IsoInstant

/-! Reading ISO 8601: dates by month or by week, clocks with or without separators, offsets. -/
namespace StockContent.Storage

section Read

/-- As many digits as asked for, after those that make up `value`. -/
def readDigits (value : Nat) : Nat → List Char → Option (Nat × List Char)
  | 0, text => some (value, text)
  | width + 1, c :: rest => if c.isDigit then readDigits (10 * value + (c.toNat - 48)) width rest else none
  | _ + 1, [] => none

/-- The Monday of the first week of a year, the week that January 4 is in. -/
def firstMonday (year : Int) : Int := dayNumber year 1 4 - (dayNumber year 1 4 + 3) % 7

/-- A year has 53 weeks if it starts on a Thursday, or on a Wednesday and is a leap year. -/
def weeksOf (year : Int) : Int :=
  let weekday := (dayNumber year 1 1 + 3) % 7
  if weekday = 3 ∨ weekday = 2 ∧ isLeap year then 53 else 52

def inCalendar (day : Int) : Prop := -719162 ≤ day ∧ day ≤ 2932896

instance (day : Int) : Decidable (inCalendar day) := inferInstanceAs (Decidable (_ ∧ _))

def weekDate (year week day : Nat) : Option Int :=
  let number := firstMonday year + (week - 1) * 7 + (day - 1)
  if 1 ≤ week ∧ week ≤ weeksOf year ∧ 1 ≤ day ∧ day ≤ 7 ∧ inCalendar number then some number else none

def monthDate (year month day : Nat) : Option Int :=
  if isDate year month day then some (dayNumber year month day) else none

/-- `-`, where the text is written with separators. -/
def readDash (separated : Bool) : List Char → Option (List Char)
  | '-' :: rest => if separated then some rest else none
  | text => if separated then none else some text

def readWeek (separated : Bool) (year : Nat) (text : List Char) : Option Int := do
  let (week, rest) ← readDigits 0 2 text
  if rest.isEmpty then weekDate year week 1
  else
    let rest ← readDash separated rest
    let (day, rest) ← readDigits 0 1 rest
    if rest.isEmpty then weekDate year week day else none

def readMonth (separated : Bool) (year : Nat) (text : List Char) : Option Int := do
  let (month, rest) ← readDigits 0 2 text
  let rest ← readDash separated rest
  let (day, rest) ← readDigits 0 2 rest
  if rest.isEmpty then monthDate year month day else none

/-- `YYYY-MM-DD`, `YYYYMMDD`, `YYYY-Www[-D]` or `YYYYWww[D]`. -/
def readDate (text : List Char) : Option Int := do
  let (year, rest) ← readDigits 0 4 text
  match rest with
  | '-' :: 'W' :: rest => readWeek true year rest
  | '-' :: rest => readMonth true year rest
  | 'W' :: rest => readWeek false year rest
  | rest => readMonth false year rest

/-- The microseconds of a fraction; digits after the sixth are dropped. -/
def readFraction : List Char → Option Nat
  | [] => some 0
  | c :: digits =>
    if (c = '.' || c = ',') && !digits.isEmpty && digits.all Char.isDigit then
      (readDigits 0 (digits.take 6).length digits).map fun read => read.1 * 10 ^ (6 - (digits.take 6).length)
    else none

/-- The `:` before the next two digits, where the text is written with separators. -/
def readColon (separated : Bool) : List Char → Option (List Char)
  | ':' :: rest => if separated then some rest else none
  | text => if separated then none else some text

/-- `HH[:MM[:SS[.f]]]` or `HH[MM[SS[.f]]]`: hours, minutes, seconds and microseconds. -/
def readClock (text : List Char) : Option (Nat × Nat × Nat × Nat) := do
  let (hour, rest) ← readDigits 0 2 text
  if rest.isEmpty then return (hour, 0, 0, 0)
  else
    let separated := rest.head? = some ':'
    let rest ← readColon separated rest
    let (minute, rest) ← readDigits 0 2 rest
    if rest.isEmpty then return (hour, minute, 0, 0)
    else
      let rest ← readColon separated rest
      let (second, rest) ← readDigits 0 2 rest
      let microsecond ← readFraction rest
      return (hour, minute, second, microsecond)

def microseconds (clock : Nat × Nat × Nat × Nat) : Nat :=
  ((clock.1 * 60 + clock.2.1) * 60 + clock.2.2.1) * 1000000 + clock.2.2.2

def dayMicroseconds : Nat := 86400000000

def readOffset (text : List Char) : Option Int := do
  let clock ← readClock text
  if microseconds clock < dayMicroseconds then some (microseconds clock : Int) else none

def readZone : List Char → Option (Option Int)
  | [] => some none
  | ['Z'] => some (some 0)
  | '+' :: text => (readOffset text).map some
  | '-' :: text => (readOffset text).map fun offset => some (-offset)
  | _ => none

def startsZone (c : Char) : Bool := c = '+' || c = '-' || c = 'Z'

def readTime (text : List Char) : Option (Int × Option Int) := do
  let clock ← readClock (text.takeWhile (!startsZone ·))
  let offset ← readZone (text.dropWhile (!startsZone ·))
  if clock.1 < 24 ∧ clock.2.1 < 60 ∧ clock.2.2.1 < 60 then some (microseconds clock, offset) else none

/-- Where the date ends. A week may be followed by its day or by a separator; digits come in
pairs after a separator. -/
def separatorAt (text : List Char) : Nat :=
  if text.length = 7 then 7
  else if text[4]? = some '-' then
    if text[5]? = some 'W' then
      if text[8]? = some '-' && !(text[10]?.any Char.isDigit) then 10 else 8
    else 10
  else if text[4]? = some 'W' then
    let digitsEnd := 7 + ((text.drop 7).takeWhile Char.isDigit).length
    if digitsEnd < 9 then digitsEnd else if digitsEnd % 2 = 0 then 7 else 8
  else 8

/-- `datetime.fromisoformat`: the wall clock in microseconds since 1970, and the offset if there is one.
Any character separates the date from the clock. -/
def fromisoformat (text : String) : Option (Int × Option Int) :=
  let chars := text.toList
  if chars.length < 7 then none
  else do
    let day ← readDate (chars.take (separatorAt chars))
    match chars.drop (separatorAt chars) with
    | [] => some (day * dayMicroseconds, none)
    | _ :: clock => (readTime clock).map fun time => (day * dayMicroseconds + time.1, time.2)

example : fromisoformat "2026-W05-2T10:30:05.25+08:00" = some (1769509805250000, some 28800000000) := by decide

end Read

section Digits

theorem readDigits_append (value width width' : Nat) (text : List Char) : readDigits value (width + width') text =
    (readDigits value width text).bind fun read => readDigits read.1 width' read.2 := by
  induction width generalizing value text with
  | zero => simp [readDigits]
  | succ width ih =>
    rw [Nat.succ_add_eq_add_succ, Nat.add_succ]
    cases text with
    | nil => rfl
    | cons c rest =>
      rw [readDigits, readDigits]
      split
      · exact ih _ _
      · rfl

theorem digitChar_isDigit {d : Nat} (h : d < 10) : (Nat.digitChar d).isDigit = true ∧ (Nat.digitChar d).toNat - 48 = d := by
  have hcheck : ∀ d : Fin 10, (Nat.digitChar d).isDigit = true ∧ (Nat.digitChar d).toNat - 48 = d := by decide
  exact hcheck ⟨d, h⟩

/-- A numeral is read back after any digits before it. -/
theorem readDigits_numeral {width n : Nat} (hn : n < 10 ^ width) (value : Nat) (rest : List Char) :
    readDigits value width (numeral width n ++ rest) = some (value * 10 ^ width + n, rest) := by
  induction width generalizing n rest with
  | zero =>
    obtain rfl : n = 0 := by simpa using hn
    simp [readDigits, numeral]
  | succ width ih =>
    have hdiv : n / 10 < 10 ^ width := Nat.div_lt_of_lt_mul (by rw [Nat.pow_succ] at hn; omega)
    obtain ⟨hdigit, hvalue⟩ := digitChar_isDigit (Nat.mod_lt n (show 0 < 10 by decide))
    rw [numeral, List.append_assoc, readDigits_append, ih hdiv, Option.bind_some, List.singleton_append, readDigits,
      if_pos hdigit, readDigits, hvalue, Nat.pow_succ]
    congr 2
    have hsplit : 10 * (value * 10 ^ width + n / 10) + n % 10 = value * (10 ^ width * 10) + (10 * (n / 10) + n % 10) := by
      ring
    rw [hsplit, Nat.div_add_mod]

theorem isDigit_of_mem_numeral {width n : Nat} {c : Char} (h : c ∈ numeral width n) : c.isDigit = true := by
  induction width generalizing n with
  | zero => cases h
  | succ width ih =>
    rw [numeral, List.mem_append, List.mem_singleton] at h
    rcases h with h | rfl
    · exact ih h
    · exact (digitChar_isDigit (Nat.mod_lt n (by decide))).1

end Digits

section ReadBack

theorem readDate_month {text rest : List Char} {year : Nat} (hyear : readDigits 0 4 text = some (year, '-' :: rest))
    (hrest : rest.head? ≠ some 'W') : readDate text = readMonth true year rest := by
  rw [readDate, hyear]
  cases rest with
  | nil => rfl
  | cons c rest =>
    have hc : c ≠ 'W' := fun h => hrest (by rw [h]; rfl)
    simp only [Option.bind_eq_bind, Option.bind_some]
    split
    · rename_i heq
      exact absurd (List.cons.inj (List.cons.inj heq).2).1 hc
    · rename_i heq
      rw [(List.cons.inj heq).2]
    · rename_i heq
      exact absurd (List.cons.inj heq).1 (by decide)
    · rename_i hnot _
      exact absurd rfl (hnot _)

theorem head?_numeral_ne {width n : Nat} {c : Char} (hc : c.isDigit = false) (rest : List Char) :
    (numeral (width + 1) n ++ rest).head? ≠ some c := by
  obtain ⟨d, ds, hds⟩ := List.exists_cons_of_length_pos
    (show 0 < (numeral (width + 1) n).length by rw [length_numeral]; exact Nat.succ_pos _)
  have hd : d.isDigit = true := isDigit_of_mem_numeral (hds ▸ List.mem_cons_self)
  rw [hds, List.cons_append, List.head?_cons]
  rintro ⟨⟩
  rw [hc] at hd
  cases hd

theorem readDate_dateText {day : Int} (h : inCalendar day) : readDate (dateText day) = some day := by
  have hdate := @civilDate_isDate (86400 * day) (by unfold inCalendar at h; exact ⟨by omega, by omega⟩)
  rw [Int.mul_ediv_cancel_left _ (by decide)] at hdate
  have hnumber := dayNumber_civilDate day
  rw [dateText]
  generalize civilDate day = date at *
  obtain ⟨year, month, dayOfMonth⟩ := date
  have hlength := (daysInMonth_bounds year month).2
  have hyear := hdate.year_pos
  have hyear' := hdate.year_le
  have hmonth := hdate.month_pos
  have hmonth' := hdate.month_le
  have hday := hdate.day_pos
  have hday' := hdate.day_le
  simp only at *
  rw [readDate_month (readDigits_numeral (by omega) 0 _) (head?_numeral_ne (by decide) _), readMonth,
    readDigits_numeral (by omega)]
  change (do
    let (day, rest) ← readDigits 0 2 (numeral 2 dayOfMonth.toNat)
    if rest.isEmpty then monthDate _ _ day else none) = _
  rw [← List.append_nil (numeral 2 dayOfMonth.toNat), readDigits_numeral (by omega)]
  change monthDate _ _ _ = _
  rw [monthDate]
  simp only [Nat.zero_mul, Nat.zero_add]
  rw [Int.toNat_of_nonneg (by omega), Int.toNat_of_nonneg (by omega), Int.toNat_of_nonneg (by omega), if_pos hdate, hnumber]

/-- A zero fraction is left out. -/
def fractionPart (micros : Nat) : List Char := if micros = 0 then [] else '.' :: numeral 6 micros

theorem readFraction_fractionPart {micros : Nat} (h : micros < 1000000) : readFraction (fractionPart micros) = some micros := by
  rw [fractionPart]
  split
  · rename_i hzero
    rw [hzero]
    rfl
  · have hlength := length_numeral 6 micros
    have hdigits : (numeral 6 micros).all Char.isDigit = true := List.all_eq_true.mpr fun _ => isDigit_of_mem_numeral
    have htake : ((numeral 6 micros).take 6).length = 6 := by rw [List.length_take, hlength]; rfl
    have hne : (numeral 6 micros).isEmpty = false := by
      rw [List.isEmpty_eq_false_iff]
      exact List.ne_nil_of_length_eq_add_one hlength
    have hread := readDigits_numeral (show micros < 10 ^ 6 from h) 0 []
    rw [List.append_nil] at hread
    rw [readFraction, hdigits, htake, hne, hread]
    simp

theorem readClock_hours {hour : Nat} (hhour : hour < 100) (rest : List Char) :
    readClock (numeral 2 hour ++ ':' :: rest) = do
      let (minute, rest) ← readDigits 0 2 rest
      if rest.isEmpty then return (hour, minute, 0, 0)
      else
        let rest ← readColon true rest
        let (second, rest) ← readDigits 0 2 rest
        let microsecond ← readFraction rest
        return (hour, minute, second, microsecond) := by
  rw [readClock, readDigits_numeral hhour, Nat.zero_mul, Nat.zero_add]
  rfl

theorem readClock_minutes {hour minute : Nat} (hhour : hour < 100) (hminute : minute < 100) :
    readClock (numeral 2 hour ++ ':' :: numeral 2 minute) = some (hour, minute, 0, 0) := by
  have hread := readDigits_numeral (show minute < 10 ^ 2 from hminute) 0 []
  rw [List.append_nil, Nat.zero_mul, Nat.zero_add] at hread
  rw [readClock_hours hhour, hread]
  rfl

theorem readClock_seconds {hour minute second micros : Nat} (hhour : hour < 100) (hminute : minute < 100)
    (hsecond : second < 100) (hmicros : micros < 1000000) :
    readClock (numeral 2 hour ++ ':' :: (numeral 2 minute ++ ':' :: (numeral 2 second ++ fractionPart micros))) =
      some (hour, minute, second, micros) := by
  rw [readClock_hours hhour, readDigits_numeral hminute, Nat.zero_mul, Nat.zero_add]
  change (do
    let (second, rest) ← readDigits 0 2 (numeral 2 second ++ fractionPart micros)
    let microsecond ← readFraction rest
    return (hour, minute, second, microsecond)) = _
  rw [readDigits_numeral hsecond, Nat.zero_mul, Nat.zero_add]
  change (do
    let microsecond ← readFraction (fractionPart micros)
    return (hour, minute, second, microsecond)) = _
  rw [readFraction_fractionPart hmicros]
  rfl

/-- `HH:MM[:SS[.ffffff]]`. -/
def offsetClock (size : Nat) : List Char :=
  numeral 2 (size / 3600000000) ++ ':' :: (numeral 2 (size / 60000000 % 60) ++
    if size % 60000000 = 0 then [] else ':' :: (numeral 2 (size / 1000000 % 60) ++ fractionPart (size % 1000000)))

def offsetText (offset : Int) : List Char := (if offset < 0 then '-' else '+') :: offsetClock offset.natAbs

theorem readOffset_eq {text : List Char} {clock : Nat × Nat × Nat × Nat} {size : Nat} (hread : readClock text = some clock)
    (hvalue : microseconds clock = size) (h : size < dayMicroseconds) : readOffset text = some (size : Int) := by
  rw [readOffset, hread, Option.bind_eq_bind, Option.bind_some, hvalue, if_pos h]

theorem readOffset_offsetClock {size : Nat} (h : size < dayMicroseconds) : readOffset (offsetClock size) = some (size : Int) := by
  have hbound : size < 86400000000 := h
  have hhours : size / 3600000000 < 100 := by omega
  have hminutes : size / 60000000 % 60 < 100 := by omega
  rw [offsetClock]
  by_cases hzero : size % 60000000 = 0
  · rw [if_pos hzero, List.append_nil]
    refine readOffset_eq (readClock_minutes hhours hminutes) ?_ h
    simp only [microseconds]
    omega
  · rw [if_neg hzero]
    refine readOffset_eq (readClock_seconds hhours hminutes (by omega) (Nat.mod_lt _ (by decide))) ?_ h
    simp only [microseconds]
    omega

theorem readZone_plus (text : List Char) : readZone ('+' :: text) = (readOffset text).map some := by
  cases text <;> rfl

theorem readZone_minus (text : List Char) :
    readZone ('-' :: text) = (readOffset text).map fun offset => some (-offset) := by
  cases text <;> rfl

theorem readZone_offsetText {offset : Int} (h : offset.natAbs < dayMicroseconds) :
    readZone (offsetText offset) = some (some offset) := by
  have hoffset := readOffset_offsetClock h
  rw [offsetText]
  by_cases hsign : offset < 0
  · rw [if_pos hsign, readZone_minus, hoffset, Option.map_some, show -(offset.natAbs : Int) = offset by omega]
  · rw [if_neg hsign, readZone_plus, hoffset, Option.map_some, show (offset.natAbs : Int) = offset by omega]

/-- `isoformat()` of a datetime. -/
def isoText (wall : Int) (offset : Option Int) : List Char :=
  secondText (wall / 1000000) ++ (fractionPart (wall % 1000000).toNat ++ offset.elim [] offsetText)

theorem startsZone_digit {c : Char} (h : c.isDigit = true) : startsZone c = false := by
  rw [startsZone, Bool.or_eq_false_iff, Bool.or_eq_false_iff]
  refine ⟨⟨?_, ?_⟩, ?_⟩ <;> rw [decide_eq_false_iff_not] <;> rintro rfl <;> revert h <;> decide

theorem startsZone_clock {n micros : Nat} {c : Char} (h : c ∈ timeText n ++ fractionPart micros) : startsZone c = false := by
  rw [timeText, List.mem_append] at h
  rcases h with h | h
  · simp only [List.mem_append, List.mem_cons] at h
    rcases h with h | rfl | h | rfl | h
    · exact startsZone_digit (isDigit_of_mem_numeral h)
    · decide
    · exact startsZone_digit (isDigit_of_mem_numeral h)
    · decide
    · exact startsZone_digit (isDigit_of_mem_numeral h)
  · rw [fractionPart] at h
    split at h
    · cases h
    · rcases List.mem_cons.mp h with rfl | h
      · decide
      · exact startsZone_digit (isDigit_of_mem_numeral h)

theorem readZone_of_offset {offset : Option Int} (h : ∀ o ∈ offset, o.natAbs < dayMicroseconds) :
    readZone (offset.elim [] offsetText) = some offset := by
  cases offset with
  | none => rfl
  | some o => exact readZone_offsetText (h o rfl)

theorem offset_startsZone (offset : Option Int) : ∀ c ∈ (offset.elim [] offsetText).head?, startsZone c = true := by
  cases offset with
  | none => nofun
  | some o =>
    rintro c ⟨⟩
    split <;> rfl

theorem readTime_text {n micros : Nat} (hn : n < 86400) (hmicros : micros < 1000000) {zone : List Char} {offset : Option Int}
    (hzone : readZone zone = some offset) (hstart : ∀ c ∈ zone.head?, startsZone c = true) :
    readTime (timeText n ++ (fractionPart micros ++ zone)) = some (((n * 1000000 + micros : Nat) : Int), offset) := by
  have hclock : ∀ c ∈ timeText n ++ fractionPart micros, (!startsZone c) = true :=
    fun c hc => by rw [startsZone_clock hc, Bool.not_false]
  have htake : zone.takeWhile (!startsZone ·) = [] ∧ zone.dropWhile (!startsZone ·) = zone := by
    cases zone with
    | nil => exact ⟨rfl, rfl⟩
    | cons c rest =>
      have hc : (!startsZone c) = false := by rw [hstart c rfl, Bool.not_true]
      simp [hc]
  unfold readTime
  rw [← List.append_assoc, List.takeWhile_append_of_pos hclock, List.dropWhile_append_of_pos hclock, htake.1,
    htake.2, List.append_nil, timeText, List.append_assoc, List.cons_append, List.append_assoc, List.cons_append,
    readClock_seconds (by omega) (by omega) (by omega) hmicros, hzone]
  have hvalue : microseconds (n / 3600, n / 60 % 60, n % 60, micros) = n * 1000000 + micros := by
    simp only [microseconds]
    omega
  rw [Option.bind_eq_bind, Option.bind_some, Option.bind_eq_bind, Option.bind_some, hvalue,
    if_pos (show n / 3600 < 24 ∧ n / 60 % 60 < 60 ∧ n % 60 < 60 by omega)]

theorem separatorAt_dateText (day : Int) (rest : List Char) (h : rest ≠ []) : separatorAt (dateText day ++ rest) = 10 := by
  have hlength : (dateText day).length = 10 := by simp [dateText]
  have hrest := List.length_pos_of_ne_nil h
  have hdash : (dateText day ++ rest)[4]? = some '-' := by
    rw [dateText, List.append_assoc, List.getElem?_append_right (by simp)]
    simp
  have hmonth : (dateText day ++ rest)[5]? ≠ some 'W' := by
    rw [dateText, List.append_assoc, List.getElem?_append_right (by simp)]
    intro heq
    have hfirst : (numeral 2 (civilDate day).2.1.toNat)[0] = 'W' := by simpa using heq
    have hdigit := isDigit_of_mem_numeral (hfirst ▸ List.getElem_mem _)
    exact absurd hdigit (by decide)
  rw [separatorAt, if_neg (by rw [List.length_append]; omega), if_pos hdash, if_neg hmonth]

/-- What `isoformat` writes is read back. -/
theorem fromisoformat_isoText {wall : Int} {offset : Option Int} (h : isDatetime wall)
    (hoffset : ∀ o ∈ offset, o.natAbs < dayMicroseconds) :
    fromisoformat (String.ofList (isoText wall offset)) = some (wall, offset) := by
  obtain ⟨h₀, h₁⟩ := h
  have hday : inCalendar (wall / 1000000 / 86400) := ⟨by omega, by omega⟩
  have hlength : (dateText (wall / 1000000 / 86400)).length = 10 := by simp [dateText]
  have htime := @readTime_text (wall / 1000000 % 86400).toNat (wall % 1000000).toNat (by omega) (by omega) _ _
    (readZone_of_offset hoffset) (offset_startsZone offset)
  rw [isoText, secondText, List.append_assoc, List.cons_append, fromisoformat, String.toList_ofList,
    separatorAt_dateText _ _ (List.cons_ne_nil _ _), List.take_left' hlength, List.drop_left' hlength,
    if_neg (by rw [List.length_append]; omega), readDate_dateText hday, Option.bind_eq_bind, Option.bind_some]
  change Option.map _ (readTime _) = _
  rw [htime, Option.map_some, dayMicroseconds, Option.some_inj, Prod.mk.injEq]
  refine ⟨?_, rfl⟩
  dsimp only
  omega

/-- The text of a UTC datetime. -/
theorem isoText_utc {t : Int} (h : isDatetime t) : String.ofList (isoText t (some 0)) = isoformat t := by
  rw [← Rendering.text_ofTime h, Rendering.text, Rendering.ofTime, isoText, fractionPart]
  have hzero : (t % 1000000).toNat = 0 ↔ t % 1000000 = 0 := by omega
  have hzone : (some (0 : Int)).elim [] offsetText = zone false := by decide
  simp only [hzero, hzone, tailText]
  split
  · rfl
  · obtain ⟨d, ds, hdigits⟩ := List.exists_cons_of_length_pos
      (show 0 < (digits 6 (t % 1000000).toNat).length by rw [length_digits]; decide)
    rw [hdigits, fractionText, ← hdigits, digitText_digits]

theorem fromisoformat_isoformat {t : Int} (h : isDatetime t) : fromisoformat (isoformat t) = some (t, some 0) := by
  rw [← isoText_utc h]
  refine fromisoformat_isoText h ?_
  rintro o ⟨⟩
  decide

end ReadBack

/-! What is read lies in the calendar. -/
section Range

theorem readDigits_lt {width value n : Nat} {text rest : List Char} (h : readDigits value width text = some (n, rest)) :
    n < (value + 1) * 10 ^ width := by
  induction width generalizing value text with
  | zero =>
    cases h
    omega
  | succ width ih =>
    cases text with
    | nil => cases h
    | cons c text =>
      rw [readDigits] at h
      split at h
      case isTrue hdigit =>
        have hlt := ih h
        have hc : c.toNat - 48 < 10 := by
          simp only [Char.isDigit, Bool.and_eq_true, decide_eq_true_eq, ge_iff_le, UInt32.le_iff_toNat_le] at hdigit
          have hmax : c.toNat ≤ 57 := hdigit.2
          omega
        calc n < (10 * value + (c.toNat - 48) + 1) * 10 ^ width := hlt
          _ ≤ ((value + 1) * 10) * 10 ^ width := Nat.mul_le_mul_right _ (by omega)
          _ = (value + 1) * 10 ^ (width + 1) := by rw [pow_succ', Nat.mul_assoc]
      case isFalse => cases h

theorem weekDate_inCalendar {year week day : Nat} {number : Int} (h : weekDate year week day = some number) :
    inCalendar number := by
  rw [weekDate] at h
  split at h
  case isTrue hvalid =>
    cases h
    exact hvalid.2.2.2.2
  case isFalse => cases h

theorem monthDate_inCalendar {year month day : Nat} {number : Int} (h : monthDate year month day = some number) :
    inCalendar number := by
  rw [monthDate] at h
  split at h
  case isTrue hdate =>
    cases h
    exact dayNumber_bounds hdate
  case isFalse => cases h

theorem readWeek_inCalendar {separated : Bool} {year : Nat} {text : List Char} {number : Int}
    (h : readWeek separated year text = some number) : inCalendar number := by
  obtain ⟨⟨week, rest⟩, -, h⟩ := Option.bind_eq_some_iff.mp h
  dsimp only at h
  split at h
  · exact weekDate_inCalendar h
  · obtain ⟨rest', -, h⟩ := Option.bind_eq_some_iff.mp h
    obtain ⟨⟨day, afterDay⟩, -, h⟩ := Option.bind_eq_some_iff.mp h
    dsimp only at h
    split at h
    · exact weekDate_inCalendar h
    · cases h

theorem readMonth_inCalendar {separated : Bool} {year : Nat} {text : List Char} {number : Int}
    (h : readMonth separated year text = some number) : inCalendar number := by
  obtain ⟨⟨month, rest⟩, -, h⟩ := Option.bind_eq_some_iff.mp h
  obtain ⟨rest', -, h⟩ := Option.bind_eq_some_iff.mp h
  obtain ⟨⟨day, afterDay⟩, -, h⟩ := Option.bind_eq_some_iff.mp h
  dsimp only at h
  split at h
  · exact monthDate_inCalendar h
  · cases h

theorem readDate_inCalendar {text : List Char} {number : Int} (h : readDate text = some number) : inCalendar number := by
  obtain ⟨⟨year, rest⟩, -, h⟩ := Option.bind_eq_some_iff.mp h
  dsimp only at h
  split at h
  · exact readWeek_inCalendar h
  · exact readMonth_inCalendar h
  · exact readWeek_inCalendar h
  · exact readMonth_inCalendar h

theorem readFraction_lt {text : List Char} {micros : Nat} (h : readFraction text = some micros) : micros < 1000000 := by
  cases text with
  | nil =>
    cases h
    decide
  | cons c digits =>
    rw [readFraction] at h
    split at h
    case isTrue =>
      obtain ⟨read, hread, rfl⟩ := Option.map_eq_some_iff.mp h
      have hlt := readDigits_lt hread
      have hlength : (digits.take 6).length ≤ 6 := List.length_take_le 6 digits
      rw [Nat.zero_add, Nat.one_mul] at hlt
      calc read.1 * 10 ^ (6 - (digits.take 6).length)
          < 10 ^ (digits.take 6).length * 10 ^ (6 - (digits.take 6).length) :=
            Nat.mul_lt_mul_of_pos_right hlt (Nat.pow_pos (by decide))
        _ = 10 ^ 6 := by rw [← pow_add, Nat.add_sub_cancel' hlength]
    case isFalse => cases h

theorem readClock_lt {text : List Char} {clock : Nat × Nat × Nat × Nat} (h : readClock text = some clock) :
    clock.2.2.2 < 1000000 := by
  obtain ⟨⟨hour, rest⟩, -, h⟩ := Option.bind_eq_some_iff.mp h
  dsimp only at h
  split at h
  · cases h
    exact Nat.zero_lt_succ _
  · obtain ⟨rest', -, h⟩ := Option.bind_eq_some_iff.mp h
    obtain ⟨⟨minute, afterMinute⟩, -, h⟩ := Option.bind_eq_some_iff.mp h
    dsimp only at h
    split at h
    · cases h
      exact Nat.zero_lt_succ _
    · obtain ⟨afterColon, -, h⟩ := Option.bind_eq_some_iff.mp h
      obtain ⟨⟨second, afterSecond⟩, -, h⟩ := Option.bind_eq_some_iff.mp h
      obtain ⟨micros, hmicros, h⟩ := Option.bind_eq_some_iff.mp h
      cases h
      exact readFraction_lt hmicros

theorem readTime_bounds {text : List Char} {time : Int × Option Int} (h : readTime text = some time) :
    0 ≤ time.1 ∧ time.1 < dayMicroseconds := by
  obtain ⟨clock, hclock, h⟩ := Option.bind_eq_some_iff.mp h
  obtain ⟨offset, -, h⟩ := Option.bind_eq_some_iff.mp h
  have hmicros := readClock_lt hclock
  split at h
  case isTrue hvalid =>
    cases h
    simp only [microseconds, dayMicroseconds]
    omega
  case isFalse => cases h

/-- A datetime has a year of four digits. -/
theorem isDatetime_of_fromisoformat {text : String} {read : Int × Option Int} (h : fromisoformat text = some read) :
    isDatetime read.1 := by
  rw [fromisoformat] at h
  split at h
  case isTrue => cases h
  case isFalse =>
    obtain ⟨day, hday, h⟩ := Option.bind_eq_some_iff.mp h
    obtain ⟨h₀, h₁⟩ := readDate_inCalendar hday
    rw [isDatetime, inYears]
    split at h
    · cases h
      simp only [dayMicroseconds]
      omega
    · obtain ⟨time, htime, rfl⟩ := Option.map_eq_some_iff.mp h
      obtain ⟨hlow, hhigh⟩ := readTime_bounds htime
      rw [dayMicroseconds] at hhigh
      simp only [dayMicroseconds]
      omega

end Range

section Datetime

theorem readOffset_lt {text : List Char} {offset : Int} (h : readOffset text = some offset) :
    offset.natAbs < dayMicroseconds := by
  obtain ⟨clock, -, h⟩ := Option.bind_eq_some_iff.mp h
  split at h
  case isTrue hbound =>
    cases h
    exact hbound
  case isFalse => cases h

theorem readZone_lt {text : List Char} {offset : Option Int} (h : readZone text = some offset) :
    ∀ o ∈ offset, o.natAbs < dayMicroseconds := by
  rintro o rfl
  unfold readZone at h
  split at h
  · cases h
  · cases h
    decide
  · obtain ⟨read, hread, heq⟩ := Option.map_eq_some_iff.mp h
    cases heq
    exact readOffset_lt hread
  · obtain ⟨read, hread, heq⟩ := Option.map_eq_some_iff.mp h
    cases heq
    rw [Int.natAbs_neg]
    exact readOffset_lt hread
  · cases h

theorem offset_of_fromisoformat {text : String} {read : Int × Option Int} (h : fromisoformat text = some read) :
    ∀ o ∈ read.2, o.natAbs < dayMicroseconds := by
  rw [fromisoformat] at h
  split at h
  case isTrue => cases h
  case isFalse =>
    obtain ⟨day, -, h⟩ := Option.bind_eq_some_iff.mp h
    split at h
    · cases h
      nofun
    · obtain ⟨time, htime, rfl⟩ := Option.map_eq_some_iff.mp h
      obtain ⟨clock, -, h⟩ := Option.bind_eq_some_iff.mp htime
      obtain ⟨offset, hoffset, h⟩ := Option.bind_eq_some_iff.mp h
      split at h
      case isTrue =>
        cases h
        exact readZone_lt hoffset
      case isFalse => cases h

/-- A datetime: the wall clock and, unless it is naive, its offset from UTC. -/
structure Datetime where
  wall : Int
  offset : Option Int
  range : isDatetime wall
  offset_lt : ∀ o ∈ offset, o.natAbs < dayMicroseconds
  deriving DecidableEq

namespace Datetime

def text (t : Datetime) : String := String.ofList (isoText t.wall t.offset)

def ofText (text : String) : Option Datetime :=
  match hread : fromisoformat text with
  | none => none
  | some read => some ⟨read.1, read.2, isDatetime_of_fromisoformat hread, offset_of_fromisoformat hread⟩

theorem ofText_text (t : Datetime) : ofText t.text = some t := by
  have hread : fromisoformat t.text = some (t.wall, t.offset) := fromisoformat_isoText t.range t.offset_lt
  rw [ofText]
  split
  case h_1 hnone => cases hnone.symm.trans hread
  case h_2 read hsome =>
    cases Option.some.inj (hsome.symm.trans hread)
    rfl

/-- The microseconds since 1970, a naive datetime read as UTC. -/
def utc (t : Datetime) : Int := t.wall - t.offset.getD 0

/-- A naive datetime is taken to be in UTC. -/
def aware (t : Datetime) : Datetime where
  wall := t.wall
  offset := some (t.offset.getD 0)
  range := t.range
  offset_lt := by
    rintro o ⟨⟩
    cases h : t.offset with
    | none => decide
    | some offset => exact t.offset_lt offset h

theorem aware_eq_self {t : Datetime} : t.aware = t ↔ t.offset ≠ none := by
  obtain ⟨wall, offset, range, hoffset⟩ := t
  cases offset <;> simp [aware]

end Datetime

end Datetime
end StockContent.Storage
