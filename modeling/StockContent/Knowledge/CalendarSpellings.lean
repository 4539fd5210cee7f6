import StockContent.Knowledge.CalendarInterval
import StockContent.Text.Leading

/-! The spellings of a day and of a month, and which of them are read as that day and that month. -/
namespace StockContent.Knowledge
open Storage Text

section Written
variable {n : Nat} {digits : List Char}

/-- A number of at most two digits, with or without a leading zero. -/
def Written (n : Nat) (digits : List Char) : Prop := n < 100 ∧ digits = numeral 2 n ∨ n < 10 ∧ digits = numeral 1 n

theorem Written.numeral (h : Written n digits) :
    ∃ width, 0 < width ∧ n < 10 ^ width ∧ digits = Storage.numeral width n := by
  rcases h with ⟨hn, rfl⟩ | ⟨hn, rfl⟩
  · exact ⟨2, by decide, hn, rfl⟩
  · exact ⟨1, by decide, hn, rfl⟩

theorem Written.isDigit (h : Written n digits) : ∀ c ∈ digits, c.isDigit = true := by
  obtain ⟨width, -, -, rfl⟩ := h.numeral
  exact fun c hc => isDigit_of_mem_numeral hc

theorem Written.length (h : Written n digits) : 1 ≤ digits.length ∧ digits.length ≤ 2 := by
  rcases h with ⟨-, rfl⟩ | ⟨-, rfl⟩ <;> simp

theorem intOf_written (rt : CalendarRuntime) (h : Written n digits) : intOf rt digits = n := by
  obtain ⟨width, -, hn, rfl⟩ := h.numeral
  exact intOf_numeral hn

/-- The decimal text of a number. -/
def unpadded (n : Nat) : List Char := Nat.toDigits 10 n

theorem unpadded_eq (h : n < 100) : unpadded n = numeral (if n < 10 then 1 else 2) n := by
  rw [unpadded]
  split
  · rename_i hsmall
    rw [Nat.toDigits_of_lt_base hsmall, numeral, numeral, Nat.mod_eq_of_lt hsmall]
    rfl
  · rename_i hlarge
    rw [Nat.toDigits_eq_if (by decide), if_neg hlarge, Nat.toDigits_of_lt_base (by omega), numeral, numeral, numeral,
      Nat.mod_eq_of_lt (show n / 10 < 10 by omega)]
    rfl

theorem written_padded (h : n < 100) : Written n (numeral 2 n) := .inl ⟨h, rfl⟩

theorem written_unpadded (h : n < 100) : Written n (unpadded n) := by
  rw [unpadded_eq h]
  split
  · rename_i hsmall
    exact .inr ⟨hsmall, rfl⟩
  · exact .inl ⟨h, rfl⟩

end Written

section Parts
variable {rt : CalendarRuntime} {n : Nat} {digits taken : List Char}

theorem reads_char (c : Char) : (Regex.char c).Reads [c] := Regex.reads_one (decide_eq_true rfl)

theorem digitChar_toNat (h : n < 10) : (Nat.digitChar n).toNat = 48 + n := by
  have hdigits : ∀ n : Fin 10, (Nat.digitChar n.val).toNat = 48 + n.val := by decide
  exact hdigits ⟨n, h⟩

theorem reads_digit {first last : Char} (h : n < 10) (hfirst : first.toNat ≤ 48 + n) (hlast : 48 + n ≤ last.toNat) :
    (Regex.range first last).Reads [Nat.digitChar n] := by
  rw [← digitChar_toNat h] at hfirst hlast
  refine Regex.reads_one ?_
  rw [Bool.and_eq_true, decide_eq_true_eq, decide_eq_true_eq]
  exact ⟨hfirst, hlast⟩

theorem reads_decimal (rt : CalendarRuntime) (h : n < 10) :
    (Regex.one rt.tables.isDecimal).Reads [Nat.digitChar n] :=
  Regex.reads_one (rt.ascii _ (digitChar_isDigit h).1).1

theorem reads_yearPart (h₀ : 1900 ≤ n) (h₁ : n ≤ 2099) : (yearPart rt.tables).Reads (numeral 4 n) := by
  have hcentury : (Regex.alt (.word "19") (.word "20")).Reads (numeral 2 (n / 100)) := by
    obtain hcentury | hcentury : n / 100 = 19 ∨ n / 100 = 20 := by omega
    · rw [hcentury]
      exact (Regex.reads_word "19").left
    · rw [hcentury]
      exact (Regex.reads_word "20").right
  have htens := reads_decimal rt (Nat.mod_lt (n / 10) (show 0 < 10 by decide))
  have hunits := reads_decimal rt (Nat.mod_lt n (show 0 < 10 by decide))
  have hread := hcentury.seq (htens.seq (hunits.seq Regex.reads_empty))
  have hsplit : numeral 4 n =
      numeral 2 (n / 100) ++ ([Nat.digitChar (n / 10 % 10)] ++ ([Nat.digitChar (n % 10)] ++ [])) := by
    rw [numeral, numeral, Nat.div_div_eq_div_mul, List.append_assoc, List.append_nil]
  rw [hsplit]
  exact hread

theorem reads_single (h₀ : 1 ≤ n) (h₁ : n < 10) (h : Written n digits) :
    (Regex.seq (.option (.char '0')) (.range '1' '9')).Reads digits := by
  have hdigit : (Regex.range '1' '9').Reads [Nat.digitChar n] :=
    reads_digit h₁ (show 49 ≤ 48 + n by omega) (show 48 + n ≤ 57 by omega)
  have hmod : n % 10 = n := Nat.mod_eq_of_lt h₁
  rcases h with ⟨-, rfl⟩ | ⟨-, rfl⟩
  · have hzero : n / 10 % 10 = 0 := by omega
    have hread := ((reads_char '0').option (List.cons_ne_nil _ _)).seq hdigit
    rw [numeral, numeral, numeral, hmod, hzero]
    exact hread
  · rw [numeral, numeral, hmod]
    exact (Regex.reads_rep_nil _ _).seq hdigit

theorem written_large (h : Written n digits) (hn : 10 ≤ n) :
    digits = [Nat.digitChar (n / 10)] ++ [Nat.digitChar (n % 10)] := by
  rcases h with ⟨hn', rfl⟩ | ⟨hn', -⟩
  · rw [numeral, numeral, numeral, Nat.mod_eq_of_lt (show n / 10 < 10 by omega)]
    rfl
  · omega

theorem reads_monthPart (h₀ : 1 ≤ n) (h₁ : n ≤ 12) (h : Written n digits) : monthPart.Reads digits := by
  by_cases hn : n < 10
  · exact (reads_single h₀ hn h).left
  · have hten : n / 10 = 1 := by omega
    rw [written_large h (by omega), hten]
    refine ((reads_char '1').seq (reads_digit (by omega) ?_ ?_)).right
    · exact Nat.le_add_right 48 _
    · change 48 + n % 10 ≤ 50
      omega

theorem reads_dayPart (h₀ : 1 ≤ n) (h₁ : n ≤ 31) (h : Written n digits) : (dayPart rt.tables).Reads digits := by
  by_cases hn : n < 10
  · exact (reads_single h₀ hn h).left
  · rw [written_large h (by omega)]
    refine Regex.Reads.right ?_
    obtain hten | hten | hten : n / 10 = 1 ∨ n / 10 = 2 ∨ n / 10 = 3 := by omega
    · rw [hten]
      exact ((Regex.reads_one (by decide)).seq (reads_decimal rt (Nat.mod_lt n (by decide)))).left
    · rw [hten]
      exact ((Regex.reads_one (by decide)).seq (reads_decimal rt (Nat.mod_lt n (by decide)))).left
    · rw [hten]
      obtain hunit | hunit : n % 10 = 0 ∨ n % 10 = 1 := by omega
      · rw [hunit]
        exact ((reads_char '3').seq (Regex.reads_one (by decide))).right
      · rw [hunit]
        exact ((reads_char '3').seq (Regex.reads_one (by decide))).right

theorem reads_separatorPart (unit : Char) :
    (separatorPart rt.tables unit).Reads ['-'] ∧ (separatorPart rt.tables unit).Reads [unit] :=
  ⟨(reads_char '-').left, ((reads_char unit).seq (Regex.reads_rep_nil _ _)).right⟩

theorem readsText_separatorPart {unit : Char} (h : (separatorPart rt.tables unit).ReadsText taken) :
    taken = ['-'] ∨ ∃ blanks, taken = unit :: blanks ∧ ∀ c ∈ blanks, rt.tables.isSpace c = true := by
  rcases Regex.readsText_alt h with h | h
  · obtain ⟨c, rfl, hc⟩ := Regex.readsText_one h
    exact .inl (by rw [of_decide_eq_true hc])
  · obtain ⟨first, blanks, rfl, hfirst, hblanks⟩ := Regex.readsText_seq h
    obtain ⟨c, rfl, hc⟩ := Regex.readsText_one hfirst
    refine .inr ⟨blanks, by rw [of_decide_eq_true hc, List.singleton_append], ?_⟩
    exact hblanks.within fun _ hc => hc

/-- Months are read in digits, and days. -/
theorem readsText_monthPart_decimal (h : monthPart.ReadsText taken) : ∀ c ∈ taken, rt.tables.isDecimal c = true := by
  obtain ⟨month, -, hmonth, rfl | ⟨-, rfl⟩⟩ := readsText_monthPart h
  · exact fun c hc => (rt.ascii c (isDigit_of_mem_numeral hc)).1
  · exact fun c hc => (rt.ascii c (isDigit_of_mem_numeral hc)).1

theorem decimal_of_toNat {c : Char} (h₀ : 48 ≤ c.toNat) (h₁ : c.toNat ≤ 57) : rt.tables.isDecimal c = true := by
  rw [digitChar_of_toNat h₀ h₁]
  exact (rt.ascii _ (digitChar_isDigit (by omega)).1).1

theorem decimal_of_mem {c : Char} {chars : List Char} (hchars : chars.all Char.isDigit = true)
    (h : chars.contains c = true) : rt.tables.isDecimal c = true :=
  (rt.ascii c (List.all_eq_true.mp hchars c (List.contains_iff_mem.mp h))).1

theorem readsText_dayPart_decimal (h : (dayPart rt.tables).ReadsText taken) :
    taken ≠ [] ∧ ∀ c ∈ taken, rt.tables.isDecimal c = true := by
  constructor
  · have hpair {r : Regex} {test : Char → Bool} {taken : List Char} (h : (Regex.seq r (.one test)).ReadsText taken) :
        taken ≠ [] := by
      obtain ⟨first, second, rfl, -, hsecond⟩ := Regex.readsText_seq h
      obtain ⟨c, rfl, -⟩ := Regex.readsText_one hsecond
      simp
    rcases Regex.readsText_alt h with h | h
    · exact hpair h
    · rcases Regex.readsText_alt h with h | h
      · exact hpair h
      · exact hpair h
  · refine h.within ⟨⟨?_, ?_⟩, ⟨?_, ?_⟩, ?_, ?_⟩
    · intro c hc
      exact @decimal_of_mem rt c ['0'] (by decide) (by simpa using of_decide_eq_true hc)
    · intro c hc
      obtain ⟨h₀, h₁⟩ := readsText_range hc
      exact decimal_of_toNat (le_trans (by decide) h₀) (le_trans h₁ (by decide))
    · exact fun c hc => decimal_of_mem (by decide) hc
    · exact fun c hc => hc
    · intro c hc
      exact @decimal_of_mem rt c ['3'] (by decide) (by simpa using of_decide_eq_true hc)
    · exact fun c hc => decimal_of_mem (by decide) hc

end Parts

section Split
variable {p : Char → Bool} {xs ys rest rest' : List Char} {c d : Char}

/-- Where the run of characters ends in two texts that are equal. -/
theorem run_eq (hxs : ∀ c ∈ xs, p c = true) (hys : ∀ c ∈ ys, p c = true) (hc : p c = false) (hd : p d = false)
    (h : xs ++ c :: rest = ys ++ d :: rest') : xs = ys ∧ c = d ∧ rest = rest' := by
  induction xs generalizing ys with
  | nil =>
    cases ys with
    | nil => exact ⟨rfl, List.cons.inj h⟩
    | cons y ys =>
      obtain ⟨rfl, -⟩ := List.cons.inj h
      exact absurd (hc.symm.trans (hys c List.mem_cons_self)) Bool.false_ne_true
  | cons x xs ih =>
    cases ys with
    | nil =>
      obtain ⟨rfl, -⟩ := List.cons.inj h
      exact absurd (hd.symm.trans (hxs x List.mem_cons_self)) Bool.false_ne_true
    | cons y ys =>
      obtain ⟨rfl, htail⟩ := List.cons.inj h
      obtain ⟨rfl, hrest⟩ := ih (fun c hc => hxs c (List.mem_cons_of_mem _ hc))
        (fun c hc => hys c (List.mem_cons_of_mem _ hc)) htail
      exact ⟨rfl, hrest⟩

end Split

section Years
variable {rt : CalendarRuntime} {year : Nat} {rest : List Char} {parts : List (List Char)} {rs : List Regex}

theorem length_yearPart {taken : List Char} (h : (yearPart rt.tables).ReadsText taken) : taken.length = 4 := by
  obtain ⟨century, a, b, rfl, -⟩ := readsText_yearPart h
  simp

/-- A pattern that starts with a year reads the first four digits as one. -/
theorem reading_year (h : List.Forall₂ Regex.ReadsText (yearPart rt.tables :: rs) parts)
    (htext : parts.flatten = numeral 4 year ++ rest) :
    ∃ more, parts = numeral 4 year :: more ∧ (yearPart rt.tables).ReadsText (numeral 4 year) ∧
      List.Forall₂ Regex.ReadsText rs more ∧ more.flatten = rest := by
  obtain ⟨taken, more, hyear, hmore, rfl⟩ := List.forall₂_cons_left_iff.mp h
  rw [List.flatten_cons] at htext
  obtain ⟨rfl, hrest⟩ := List.append_inj htext (by rw [length_yearPart hyear, length_numeral])
  exact ⟨more, rfl, hyear, hmore, hrest⟩

theorem year_of_reads (hyear : year < 10000) (h : (yearPart rt.tables).ReadsText (numeral 4 year)) :
    1900 ≤ year ∧ year ≤ 2099 := by
  have hbounds := intOf_yearPart h
  rwa [intOf_numeral hyear] at hbounds

/-- Between the numbers a separator reads one character, as no digit is a blank. -/
theorem reading_separator {n : Nat} {digits : List Char} {unit first : Char} (hm : Written n digits)
    (h : List.Forall₂ Regex.ReadsText (separatorPart rt.tables unit :: rs) parts)
    (htext : parts.flatten = first :: (digits ++ rest)) :
    ∃ more, parts = [first] :: more ∧ List.Forall₂ Regex.ReadsText rs more ∧ more.flatten = digits ++ rest := by
  obtain ⟨taken, more, hseparator, hmore, rfl⟩ := List.forall₂_cons_left_iff.mp h
  rw [List.flatten_cons] at htext
  rcases readsText_separatorPart hseparator with rfl | ⟨blanks, rfl, hblanks⟩
  · obtain ⟨rfl, hrest⟩ := List.cons.inj htext
    exact ⟨more, rfl, hmore, hrest⟩
  · obtain ⟨rfl, hrest⟩ := List.cons.inj htext
    cases blanks with
    | nil => exact ⟨more, rfl, hmore, hrest⟩
    | cons blank blanks =>
      obtain ⟨c, digits', hdigits⟩ := List.exists_cons_of_length_pos hm.length.1
      rw [hdigits] at hrest
      obtain ⟨rfl, -⟩ := List.cons.inj hrest
      have hspace := rt.notSpace blank (hm.isDigit blank (hdigits ▸ List.mem_cons_self))
      exact absurd (hspace.symm.trans (hblanks _ List.mem_cons_self)) Bool.false_ne_true

theorem separator_head {unit : Char} (h : List.Forall₂ Regex.ReadsText (separatorPart rt.tables unit :: rs) parts) :
    ∃ c more, parts.flatten = c :: more ∧ (c = '-' ∨ c = unit) := by
  obtain ⟨taken, more, hseparator, -, rfl⟩ := List.forall₂_cons_left_iff.mp h
  rw [List.flatten_cons]
  rcases readsText_separatorPart hseparator with rfl | ⟨blanks, rfl, -⟩
  · exact ⟨'-', more.flatten, rfl, .inl rfl⟩
  · exact ⟨unit, blanks ++ more.flatten, rfl, .inr rfl⟩

theorem not_decimal {c : Char} (h : c = '-' ∨ c = '年' ∨ c = '月' ∨ c = '日') : rt.tables.isDecimal c = false := by
  rcases h with rfl | rfl | rfl | rfl <;> exact (rt.separators _ (by simp)).1

theorem written_decimal {n : Nat} {digits : List Char} (h : Written n digits) :
    ∀ c ∈ digits, rt.tables.isDecimal c = true :=
  fun c hc => (rt.ascii c (h.isDigit c hc)).1

/-- The digits before a separator are those of the month. -/
theorem reading_month {n : Nat} {digits : List Char} {second unit : Char}
    (hunit : unit = '年' ∨ unit = '月') (hsecond : second = '-' ∨ second = '月') (hm : Written n digits)
    (h : List.Forall₂ Regex.ReadsText (monthPart :: separatorPart rt.tables unit :: rs) parts)
    (htext : parts.flatten = digits ++ second :: rest) :
    ∃ more, parts = digits :: more ∧ List.Forall₂ Regex.ReadsText (separatorPart rt.tables unit :: rs) more ∧
      more.flatten = second :: rest := by
  obtain ⟨taken, more, hmonth, hmore, rfl⟩ := List.forall₂_cons_left_iff.mp h
  obtain ⟨c, tail, hflat, hc⟩ := separator_head hmore
  rw [List.flatten_cons, hflat] at htext
  obtain ⟨rfl, rfl, rfl⟩ := run_eq (readsText_monthPart_decimal hmonth) (written_decimal hm)
    (@not_decimal rt _ (by grind)) (not_decimal (by grind)) htext
  exact ⟨more, rfl, hmore, hflat⟩

/-- The last digits are those of the month or of the day, with its unit if there is one. -/
theorem reading_last {part : Regex} {n : Nat} {digits last : List Char} {unit : Char}
    (hpart : ∀ taken, part.ReadsText taken → ∀ c ∈ taken, rt.tables.isDecimal c = true)
    (hunit : rt.tables.isDecimal unit = false) (hlast : last = [] ∨ last = [unit]) (hd : Written n digits)
    (h : List.Forall₂ Regex.ReadsText [part, .option (.char unit)] parts)
    (htext : parts.flatten = digits ++ last) : parts = [digits, last] := by
  obtain ⟨taken, more, htaken, hmore, rfl⟩ := List.forall₂_cons_left_iff.mp h
  obtain ⟨found, none, hfound, hnone, rfl⟩ := List.forall₂_cons_left_iff.mp hmore
  rw [List.forall₂_nil_left_iff.mp hnone] at htext ⊢
  rw [List.flatten_cons, List.flatten_cons, List.flatten_nil, List.append_nil] at htext
  have hdecimal := hpart taken htaken
  have hfound' : found = [] ∨ found = [unit] := by
    refine (Regex.readsText_option hfound).imp_right fun h => ?_
    obtain ⟨c, rfl, hc⟩ := Regex.readsText_one h
    rw [of_decide_eq_true hc]
  rcases hfound' with rfl | rfl <;> rcases hlast with rfl | rfl
  · rw [List.append_nil, List.append_nil] at htext
    rw [htext]
  · rw [List.append_nil] at htext
    have hmem : unit ∈ taken := by simp [htext]
    exact absurd (hunit.symm.trans (hdecimal _ hmem)) Bool.false_ne_true
  · rw [List.append_nil] at htext
    have hmem : unit ∈ digits := by simp [← htext]
    exact absurd (hunit.symm.trans (written_decimal hd _ hmem)) Bool.false_ne_true
  · obtain ⟨rfl, -⟩ := run_eq hdecimal (written_decimal hd) hunit hunit htext
    rfl

end Years

section Fullmatch
variable {rt : CalendarRuntime} {year month day : Nat} {monthText dayText : List Char}

/-- What may stand between the parts of a day, and after them. -/
inductive DayUnits : Char → Char → List Char → Prop where
  | dashes : DayUnits '-' '-' []
  | units : DayUnits '年' '月' ['日']

inductive MonthUnits : Char → List Char → Prop where
  | dash : MonthUnits '-' []
  | units : MonthUnits '年' ['月']

theorem fullmatch_day {first second : Char} {last : List Char} (hyear : 1900 ≤ year ∧ year ≤ 2099)
    (hmonth : 1 ≤ month ∧ month ≤ 12) (hday : 1 ≤ day ∧ day ≤ 31) (hm : Written month monthText)
    (hd : Written day dayText) (hunits : DayUnits first second last) :
    fullmatch (yearMonthDay rt.tables) (numeral 4 year ++ first :: (monthText ++ second :: (dayText ++ last))) =
      some [numeral 4 year, [first], monthText, [second], dayText, last] := by
  have hflatten : numeral 4 year ++ first :: (monthText ++ second :: (dayText ++ last)) =
      [numeral 4 year, [first], monthText, [second], dayText, last].flatten := by
    simp
  have hfirst : (separatorPart rt.tables '年').Reads [first] := by
    cases hunits with
    | dashes => exact (reads_separatorPart '年').1
    | units => exact (reads_separatorPart '年').2
  have hsecond : (separatorPart rt.tables '月').Reads [second] := by
    cases hunits with
    | dashes => exact (reads_separatorPart '月').1
    | units => exact (reads_separatorPart '月').2
  have hlast : (Regex.option (.char '日')).Reads last := by
    cases hunits with
    | dashes => exact Regex.reads_rep_nil _ _
    | units => exact (reads_char '日').option (List.cons_ne_nil _ _)
  rw [hflatten]
  refine fullmatch_eq_some (.cons (reads_yearPart hyear.1 hyear.2) (.cons hfirst (.cons
    (reads_monthPart hmonth.1 hmonth.2 hm) (.cons hsecond (.cons (reads_dayPart hday.1 hday.2 hd)
    (.cons hlast .nil)))))) ?_
  intro found htext hparts
  rw [← hflatten] at htext
  obtain ⟨more₁, rfl, -, hmore₁, htext₁⟩ := reading_year hparts htext
  obtain ⟨more₂, rfl, hmore₂, htext₂⟩ := reading_separator hm hmore₁ htext₁
  obtain ⟨more₃, rfl, hmore₃, htext₃⟩ := reading_month (.inr rfl) (by cases hunits <;> simp) hm hmore₂ htext₂
  obtain ⟨more₄, rfl, hmore₄, htext₄⟩ := reading_separator hd hmore₃ htext₃
  rw [reading_last (fun _ h => (readsText_dayPart_decimal h).2) (not_decimal (by simp)) (by cases hunits <;> simp) hd
    hmore₄ htext₄]

/-- After a month no day is read. -/
theorem fullmatch_day_of_month {first : Char} {last : List Char} (hm : Written month monthText)
    (hunits : MonthUnits first last) :
    fullmatch (yearMonthDay rt.tables) (numeral 4 year ++ first :: (monthText ++ last)) = none := by
  refine fullmatch_eq_none fun found htext hparts => ?_
  obtain ⟨more₁, rfl, -, hmore₁, htext₁⟩ := reading_year hparts htext
  obtain ⟨more₂, rfl, hmore₂, htext₂⟩ := reading_separator hm hmore₁ htext₁
  obtain ⟨taken, more₃, hmonth, hmore₃, rfl⟩ := List.forall₂_cons_left_iff.mp hmore₂
  obtain ⟨c, tail, hflat, hc⟩ := separator_head hmore₃
  have hno : rt.tables.isDecimal c = false := not_decimal (by grind)
  rw [List.flatten_cons, hflat] at htext₂
  cases hunits with
  | dash =>
    rw [List.append_nil] at htext₂
    have hmem : c ∈ monthText := by simp [← htext₂]
    exact absurd (hno.symm.trans (written_decimal hm _ hmem)) Bool.false_ne_true
  | units =>
    obtain ⟨-, -, rfl⟩ := run_eq (readsText_monthPart_decimal hmonth) (written_decimal hm) hno
      (not_decimal (by simp)) htext₂
    obtain ⟨separator, more₄, hseparator, hmore₄, rfl⟩ := List.forall₂_cons_left_iff.mp hmore₃
    obtain ⟨day, more₅, hday, -, rfl⟩ := List.forall₂_cons_left_iff.mp hmore₄
    have hday' := List.length_pos_iff.mpr (readsText_dayPart_decimal hday).1
    have hseparator' : 0 < separator.length := by
      rcases readsText_separatorPart hseparator with rfl | ⟨blanks, rfl, -⟩ <;> simp
    have hlength := congrArg List.length hflat
    rw [List.flatten_cons, List.flatten_cons, List.length_append, List.length_append, List.length_singleton] at hlength
    omega

theorem fullmatch_month {first : Char} {last : List Char} (hyear : 1900 ≤ year ∧ year ≤ 2099)
    (hmonth : 1 ≤ month ∧ month ≤ 12) (hm : Written month monthText) (hunits : MonthUnits first last) :
    fullmatch (yearMonth rt.tables) (numeral 4 year ++ first :: (monthText ++ last)) =
      some [numeral 4 year, [first], monthText, last] := by
  have hflatten : numeral 4 year ++ first :: (monthText ++ last) =
      [numeral 4 year, [first], monthText, last].flatten := by
    simp
  have hfirst : (separatorPart rt.tables '年').Reads [first] := by
    cases hunits with
    | dash => exact (reads_separatorPart '年').1
    | units => exact (reads_separatorPart '年').2
  have hlast : (Regex.option (.char '月')).Reads last := by
    cases hunits with
    | dash => exact Regex.reads_rep_nil _ _
    | units => exact (reads_char '月').option (List.cons_ne_nil _ _)
  rw [hflatten]
  refine fullmatch_eq_some (.cons (reads_yearPart hyear.1 hyear.2) (.cons hfirst (.cons
    (reads_monthPart hmonth.1 hmonth.2 hm) (.cons hlast .nil)))) ?_
  intro found htext hparts
  rw [← hflatten] at htext
  obtain ⟨more₁, rfl, -, hmore₁, htext₁⟩ := reading_year hparts htext
  obtain ⟨more₂, rfl, hmore₂, htext₂⟩ := reading_separator hm hmore₁ htext₁
  rw [reading_last (fun _ h => readsText_monthPart_decimal h) (@not_decimal rt _ (by simp))
    (by cases hunits <;> simp) hm hmore₂ htext₂]

end Fullmatch

section Unread
variable {rt : CalendarRuntime} {year : Nat} {rest taken : List Char} {first : Char}

/-- A run of characters does not go on over one of another kind. -/
theorem infix_of_run {p : Char → Bool} {before : List Char} (htaken : ∀ c ∈ taken, p c = true)
    (hfirst : p first = false) (h : taken <:+: before ++ first :: rest) : taken <:+: before ∨ taken <:+: rest := by
  obtain ⟨start, stop, heq⟩ := h
  rw [List.append_assoc] at heq
  have hnot : first ∉ taken := fun hmem => absurd (hfirst.symm.trans (htaken first hmem)) Bool.false_ne_true
  rcases List.append_eq_append_iff.mp heq with ⟨more, rfl, hmore⟩ | ⟨more, rfl, hmore⟩
  · rcases List.append_eq_append_iff.mp hmore with ⟨more', rfl, -⟩ | ⟨more', rfl, hmore'⟩
    · exact .inl ⟨start, more', List.append_assoc _ _ _⟩
    · cases more' with
      | nil => exact .inl ⟨start, [], by simp⟩
      | cons c more' =>
        obtain ⟨rfl, -⟩ := List.cons.inj hmore'
        simp at hnot
  · cases more with
    | nil =>
      cases taken with
      | nil => exact .inr (List.nil_infix)
      | cons c taken =>
        obtain ⟨rfl, -⟩ := List.cons.inj hmore
        simp at hnot
    | cons c more =>
      obtain ⟨-, rfl⟩ := List.cons.inj hmore
      exact .inr ⟨more, stop, List.append_assoc _ _ _⟩

/-- A year before 1900 or after 2099 is not read, by none of the patterns. -/
theorem patternInterval_eq_none (hyear : year < 10000) (hout : ¬ (1900 ≤ year ∧ year ≤ 2099))
    (hfirst : rt.tables.isDecimal first = false)
    (hrest : ∀ taken : List Char, (∀ c ∈ taken, rt.tables.isDecimal c = true) → taken <:+: rest → taken.length < 4) :
    patternInterval rt (numeral 4 year ++ first :: rest) = none := by
  have hnone (rs : List Regex) : fullmatch (yearPart rt.tables :: rs) (numeral 4 year ++ first :: rest) = none := by
    refine fullmatch_eq_none fun found htext hparts => ?_
    obtain ⟨-, -, hread, -⟩ := reading_year hparts htext
    exact hout (year_of_reads hyear hread)
  have hsearch : Text.search [yearPart rt.tables] (numeral 4 year ++ first :: rest) = none := by
    cases hfound : Text.search [yearPart rt.tables] (numeral 4 year ++ first :: rest) with
    | none => rfl
    | some found =>
      obtain ⟨⟨stop, hstop⟩, hparts, -⟩ := finditer_parts (consuming_yearPart rt) (List.mem_of_head? hfound)
      obtain ⟨taken, none, hread, hnil, hfound'⟩ := List.forall₂_cons_left_iff.mp hparts
      rw [List.forall₂_nil_left_iff.mp hnil] at hfound'
      have htext : found.text = taken := by simp [Match.text, hfound']
      rw [htext] at hstop
      have hlength := length_yearPart hread
      have hdecimal : ∀ c ∈ taken, rt.tables.isDecimal c = true := by
        obtain ⟨century, a, b, rfl, -, ha, hb⟩ := readsText_yearPart hread
        intro c hc
        rcases List.mem_append.mp hc with hc | hc
        · exact (rt.ascii c (isDigit_of_mem_numeral hc)).1
        · rcases List.mem_cons.mp hc with rfl | hc
          · exact ha
          · rw [List.mem_singleton.mp hc]
            exact hb
      have hinfix : taken <:+: numeral 4 year ++ first :: rest := by
        have hdrop : taken <:+: (numeral 4 year ++ first :: rest).drop found.start := ⟨[], stop, by rw [hstop]; rfl⟩
        exact hdrop.trans (List.drop_suffix _ _).isInfix
      rcases infix_of_run hdecimal hfirst hinfix with hbefore | hafter
      · have hsame := hbefore.eq_of_length (by rw [hlength, length_numeral])
        rw [hsame] at hread
        exact absurd (year_of_reads hyear hread) hout
      · exact absurd (hrest taken hdecimal hafter) (by omega)
  rw [patternInterval, yearMonthDay, yearMonth, yearOnly, hnone, hnone, hnone, hsearch]
  rfl

end Unread
end StockContent.Knowledge
