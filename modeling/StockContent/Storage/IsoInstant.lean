import Mathlib.Algebra.Order.Field.Rat
import Mathlib.Tactic.FieldSimp
import Mathlib.Tactic.Linarith
import Mathlib.Tactic.Positivity
import Mathlib.Tactic.Ring
import StockContent.Storage.ClockText

/-! Texts of UTC instants, with `Z` or with `+00:00`, with or without a fraction, and where their order as texts is
not the order of the instants. -/
namespace StockContent.Storage

section Fraction

abbrev Digit := Fin 10

/-- The value of the digits after a decimal point. -/
def fractionValue : List Digit → Rat
  | [] => 0
  | d :: ds => (d.val + fractionValue ds) / 10

theorem fractionValue_bounds (ds : List Digit) : 0 ≤ fractionValue ds ∧ fractionValue ds < 1 := by
  induction ds with
  | nil => exact ⟨le_rfl, zero_lt_one⟩
  | cons d ds ih =>
    have hd : (d.val : Rat) ≤ 9 := by exact_mod_cast Nat.le_of_lt_succ d.isLt
    have hd₀ : (0 : Rat) ≤ d.val := Nat.cast_nonneg _
    rw [fractionValue]
    constructor <;> linarith [ih.1, ih.2]

def zeros (ds : List Digit) : Prop := ∀ d ∈ ds, d = 0

theorem fractionValue_eq_zero {ds : List Digit} : fractionValue ds = 0 ↔ zeros ds := by
  induction ds with
  | nil => simp [fractionValue, zeros]
  | cons d ds ih =>
    have hd₀ : (0 : Rat) ≤ d.val := Nat.cast_nonneg _
    have hds := (fractionValue_bounds ds).1
    rw [fractionValue, zeros, List.forall_mem_cons, ← zeros, ← ih]
    constructor
    · intro h
      have hsum : (d.val : Rat) + fractionValue ds = 0 := by linarith
      refine ⟨Fin.ext (Nat.cast_eq_zero.mp (show (d.val : Rat) = 0 by linarith)), by linarith⟩
    · rintro ⟨rfl, h⟩
      simp [h]

theorem fractionValue_append_le {ds rest rest' : List Digit} :
    fractionValue (ds ++ rest) ≤ fractionValue (ds ++ rest') ↔ fractionValue rest ≤ fractionValue rest' := by
  induction ds with
  | nil => rfl
  | cons d ds ih =>
    rw [List.cons_append, List.cons_append, fractionValue, fractionValue, ← ih]
    constructor <;> intro h <;> linarith

theorem fractionValue_append (ds rest : List Digit) : fractionValue ds ≤ fractionValue (ds ++ rest) ∧
    (fractionValue (ds ++ rest) ≤ fractionValue ds ↔ zeros rest) := by
  have hrest := (fractionValue_bounds rest).1
  have hle := @fractionValue_append_le ds [] rest
  have hge := @fractionValue_append_le ds rest []
  rw [List.append_nil] at hle hge
  refine ⟨hle.mpr hrest, hge.trans ?_⟩
  rw [← fractionValue_eq_zero]
  exact ⟨fun h => le_antisymm h hrest, fun h => h.le⟩

theorem fractionValue_lt_of_lt {a b : Digit} (h : a < b) (start xs ys : List Digit) :
    fractionValue (start ++ a :: xs) < fractionValue (start ++ b :: ys) := by
  have hab : (a.val : Rat) + 1 ≤ b.val := by exact_mod_cast h
  have hxs := (fractionValue_bounds xs).2
  have hys := (fractionValue_bounds ys).1
  rw [← not_le, fractionValue_append_le, not_le, fractionValue, fractionValue]
  linarith

/-- Two fractions: one goes on from the other, or they part at a digit. -/
inductive Parting : List Digit → List Digit → Prop
  | longer (xs rest : List Digit) : Parting xs (xs ++ rest)
  | shorter (ys : List Digit) (d : Digit) (rest : List Digit) : Parting (ys ++ d :: rest) ys
  | less (start : List Digit) {a b : Digit} (h : a < b) (xs ys : List Digit) :
    Parting (start ++ a :: xs) (start ++ b :: ys)
  | more (start : List Digit) {a b : Digit} (h : b < a) (xs ys : List Digit) :
    Parting (start ++ a :: xs) (start ++ b :: ys)

theorem Parting.cons {xs ys : List Digit} (d : Digit) (h : Parting xs ys) : Parting (d :: xs) (d :: ys) := by
  cases h with
  | longer xs rest => exact .longer (d :: xs) rest
  | shorter ys e rest => exact .shorter (d :: ys) e rest
  | less start h xs ys => exact .less (d :: start) h xs ys
  | more start h xs ys => exact .more (d :: start) h xs ys

/-- Where digits differ, neither fraction goes on from the other. -/
theorem parted_ne {a b : Digit} (h : a ≠ b) (start xs ys rest : List Digit) :
    start ++ a :: xs ≠ start ++ b :: ys ++ rest := by
  rw [List.append_assoc, Ne, List.append_cancel_left_eq, List.cons_append, List.cons.injEq]
  exact fun heq => h heq.1

theorem parting (xs ys : List Digit) : Parting xs ys := by
  induction xs generalizing ys with
  | nil => exact .longer [] ys
  | cons x xs ih =>
    cases ys with
    | nil => exact .shorter [] x xs
    | cons y ys =>
      rcases lt_trichotomy x y with h | rfl | h
      · exact .less [] h xs ys
      · exact (ih ys).cons x
      · exact .more [] h xs ys

end Fraction

section Tail

def digitText (ds : List Digit) : List Char := ds.map fun d => Nat.digitChar d.val

def fractionText : List Digit → List Char
  | [] => []
  | d :: ds => '.' :: digitText (d :: ds)

def zone (zulu : Bool) : List Char := if zulu then ['Z'] else "+00:00".toList

/-- What follows the seconds. -/
def tailText (fraction : List Digit) (zulu : Bool) : List Char := fractionText fraction ++ zone zulu

theorem digitChar_between (d : Digit) : '+' < Nat.digitChar d.val ∧ Nat.digitChar d.val < 'Z' := by
  revert d
  decide

/-- A fraction that goes on does so with a character between the two that a zone starts with. -/
theorem fractionText_append (xs : List Digit) (d : Digit) (rest : List Digit) :
    ∃ c more, fractionText (xs ++ d :: rest) = fractionText xs ++ c :: more ∧ '+' < c ∧ c < 'Z' := by
  cases xs with
  | nil => exact ⟨'.', digitText (d :: rest), rfl, by decide, by decide⟩
  | cons x xs =>
    refine ⟨Nat.digitChar d.val, digitText rest, ?_, digitChar_between d⟩
    simp [fractionText, digitText]

theorem fractionText_parting (start : List Digit) (d : Digit) (rest : List Digit) :
    fractionText (start ++ d :: rest) = '.' :: digitText start ++ Nat.digitChar d.val :: digitText rest := by
  cases start <;> simp [fractionText, digitText]

theorem append_lt_append_left {start xs ys : List Char} : start ++ xs < start ++ ys ↔ xs < ys := by
  rw [append_lt_append_iff rfl]
  simp

theorem tailText_lt_of_lt {a b : Digit} (h : a < b) (start xs ys : List Digit) (zulu zulu' : Bool) :
    tailText (start ++ a :: xs) zulu < tailText (start ++ b :: ys) zulu' := by
  rw [tailText, tailText, fractionText_parting, fractionText_parting, List.append_assoc, List.append_assoc,
    append_lt_append_left, List.cons_append, List.cons_append, List.cons_lt_cons_iff]
  exact .inl ((digitChar_lt_iff a.isLt b.isLt).mpr h)

/-- An offset comes before a fraction that goes on, a `Z` after it. -/
theorem tailText_offset_lt (xs : List Digit) (d : Digit) (rest : List Digit) (zulu : Bool) :
    tailText xs false < tailText (xs ++ d :: rest) zulu := by
  obtain ⟨c, more, htext, hplus, -⟩ := fractionText_append xs d rest
  rw [tailText, tailText, htext, List.append_assoc, append_lt_append_left]
  exact List.cons_lt_cons_iff.mpr (.inl hplus)

theorem tailText_lt_zulu (xs : List Digit) (d : Digit) (rest : List Digit) (zulu : Bool) :
    tailText (xs ++ d :: rest) zulu < tailText xs true := by
  obtain ⟨c, more, htext, -, hz⟩ := fractionText_append xs d rest
  rw [tailText, tailText, htext, List.append_assoc, append_lt_append_left]
  exact List.cons_lt_cons_iff.mpr (.inl hz)

theorem tailText_offset_lt_zulu (xs : List Digit) : tailText xs false < tailText xs true := by
  rw [tailText, tailText, append_lt_append_left]
  decide

end Tail

section Rendering

/-- A text `YYYY-MM-DDTHH:MM:SS[.f...](Z|+00:00)`. -/
structure Rendering where
  second : Int
  fraction : List Digit := []
  zulu : Bool := false
  inYears : inYears second

namespace Rendering
variable (r a : Rendering)

def text : String := String.ofList (secondText r.second ++ tailText r.fraction r.zulu)

/-- The instant that is denoted, in seconds. -/
def instant : Rat := r.second + fractionValue r.fraction

/-- A `Z` after fewer digits passes for later than the rest of the bound's digits. -/
def StartsLate : Prop :=
  a.second = r.second ∧ r.zulu = true ∧ ∃ rest, a.fraction = r.fraction ++ rest ∧ ¬ zeros rest

/-- An offset after fewer digits passes for earlier than the bound's zeros. -/
def StartsEarly : Prop :=
  a.second = r.second ∧ r.zulu = false ∧ ∃ rest, rest ≠ [] ∧ a.fraction = r.fraction ++ rest ∧ zeros rest

/-- A `Z` where the bound goes on, or zeros where the bound has ended, pass for later than the bound. -/
def EndsEarly : Prop :=
  a.second = r.second ∧ (r.zulu = true ∧ r.fraction <+: a.fraction ∨
    ∃ rest, rest ≠ [] ∧ r.fraction = a.fraction ++ rest ∧ zeros rest)

variable {r a}

theorem text_le_iff : a.text ≤ r.text ↔
    a.second < r.second ∨ a.second = r.second ∧ tailText a.fraction a.zulu ≤ tailText r.fraction r.zulu := by
  rw [text, text, ← not_lt, String.lt_iff_toList_lt, String.toList_ofList, String.toList_ofList,
    append_lt_append_iff (by simp)]
  rcases lt_trichotomy a.second r.second with h | h | h
  · have htext := secondText_lt a.inYears r.inYears h
    exact iff_of_true (not_or.mpr ⟨htext.asymm, fun heq => absurd heq.1 htext.ne'⟩) (.inl h)
  · rw [h]
    simp
  · have htext := secondText_lt r.inYears a.inYears h
    exact iff_of_false (not_not.mpr (.inl htext)) (by omega)

theorem instant_le_iff : a.instant ≤ r.instant ↔
    a.second < r.second ∨ a.second = r.second ∧ fractionValue a.fraction ≤ fractionValue r.fraction := by
  have ha := fractionValue_bounds a.fraction
  have hr := fractionValue_bounds r.fraction
  rw [instant, instant]
  rcases lt_trichotomy a.second r.second with h | h | h
  · have hcast : (a.second : Rat) + 1 ≤ r.second := by exact_mod_cast h
    exact iff_of_true (by linarith) (.inl h)
  · rw [h]
    simp
  · have hcast : (r.second : Rat) + 1 ≤ a.second := by exact_mod_cast h
    exact iff_of_false (by linarith) (by omega)

/-- The fraction of a bound with an offset, and another of the same second: their order as texts. -/
theorem tailText_start {xs ys : List Digit} {zulu : Bool} :
    tailText xs false ≤ tailText ys zulu ↔
      (fractionValue xs ≤ fractionValue ys ∨ zulu = true ∧ ∃ rest, xs = ys ++ rest ∧ ¬ zeros rest) ∧
        ¬ (zulu = false ∧ ∃ rest, rest ≠ [] ∧ xs = ys ++ rest ∧ zeros rest) := by
  cases parting xs ys with
  | longer xs rest =>
    refine iff_of_true ?_ ⟨.inl (fractionValue_append xs rest).1, ?_⟩
    · cases rest with
      | nil =>
        rw [List.append_nil]
        cases zulu with
        | false => exact le_rfl
        | true => exact (tailText_offset_lt_zulu xs).le
      | cons d rest => exact (tailText_offset_lt xs d rest zulu).le
    · rintro ⟨-, rest', hne, heq, -⟩
      rw [List.append_assoc] at heq
      exact hne (List.append_eq_nil_iff.mp (List.self_eq_append_right.mp heq)).2
  | shorter ys d rest =>
    have hzeros := (fractionValue_append ys (d :: rest)).2
    cases zulu with
    | true =>
      refine iff_of_true (tailText_lt_zulu ys d rest false).le ⟨?_, fun h => Bool.noConfusion h.1⟩
      by_cases hz : zeros (d :: rest)
      · exact .inl (hzeros.mpr hz)
      · exact .inr ⟨rfl, d :: rest, rfl, hz⟩
    | false =>
      refine iff_of_false (not_le.mpr (tailText_offset_lt ys d rest false)) ?_
      rintro ⟨hle | ⟨hz, -⟩, hearly⟩
      · exact hearly ⟨rfl, d :: rest, List.cons_ne_nil _ _, rfl, hzeros.mp hle⟩
      · cases hz
  | less start h xs ys =>
    refine iff_of_true (tailText_lt_of_lt h start xs ys false zulu).le
      ⟨.inl (fractionValue_lt_of_lt h start xs ys).le, ?_⟩
    rintro ⟨-, rest, -, heq, -⟩
    exact parted_ne h.ne start xs ys rest heq
  | more start h xs ys =>
    refine iff_of_false (not_le.mpr (tailText_lt_of_lt h start ys xs zulu false)) ?_
    rintro ⟨hle | ⟨-, rest, heq, -⟩, -⟩
    · exact absurd hle (not_le.mpr (fractionValue_lt_of_lt h start ys xs))
    · exact parted_ne h.ne' start xs ys rest heq

theorem tailText_end {xs ys : List Digit} {zulu : Bool} :
    tailText ys zulu ≤ tailText xs false ↔ fractionValue ys ≤ fractionValue xs ∧
      ¬ (zulu = true ∧ ys <+: xs ∨ ∃ rest, rest ≠ [] ∧ ys = xs ++ rest ∧ zeros rest) := by
  cases parting xs ys with
  | longer xs rest =>
    have hzeros := (fractionValue_append xs rest).2
    cases rest with
    | nil =>
      rw [List.append_nil] at hzeros ⊢
      cases zulu with
      | false =>
        refine iff_of_true le_rfl ⟨le_rfl, ?_⟩
        rintro (⟨hz, -⟩ | ⟨rest, hne, heq, -⟩)
        · cases hz
        · exact hne (List.self_eq_append_right.mp heq)
      | true =>
        exact iff_of_false (not_le.mpr (tailText_offset_lt_zulu xs))
          fun h => h.2 (.inl ⟨rfl, List.prefix_refl xs⟩)
    | cons d rest =>
      refine iff_of_false (not_le.mpr (tailText_offset_lt xs d rest zulu)) fun h => h.2 (.inr ?_)
      exact ⟨d :: rest, List.cons_ne_nil _ _, rfl, hzeros.mp h.1⟩
  | shorter ys d rest =>
    have hle := (fractionValue_append ys (d :: rest)).1
    cases zulu with
    | true =>
      exact iff_of_false (not_le.mpr (tailText_lt_zulu ys d rest false))
        fun h => h.2 (.inl ⟨rfl, List.prefix_append ys (d :: rest)⟩)
    | false =>
      refine iff_of_true (tailText_offset_lt ys d rest false).le ⟨hle, ?_⟩
      rintro (⟨hz, -⟩ | ⟨rest', hne, heq, -⟩)
      · cases hz
      · rw [List.append_assoc] at heq
        exact hne (List.append_eq_nil_iff.mp (List.self_eq_append_right.mp heq)).2
  | less start h xs ys =>
    exact iff_of_false (not_le.mpr (tailText_lt_of_lt h start xs ys false zulu))
      fun hend => absurd hend.1 (not_le.mpr (fractionValue_lt_of_lt h start xs ys))
  | more start h xs ys =>
    refine iff_of_true (tailText_lt_of_lt h start ys xs zulu false).le
      ⟨(fractionValue_lt_of_lt h start ys xs).le, ?_⟩
    rintro (⟨-, rest, heq⟩ | ⟨rest, -, heq, -⟩)
    · exact parted_ne h.ne' start xs ys rest heq.symm
    · exact parted_ne h.ne start ys xs rest heq

/-- A bound with an offset from below, as a text. -/
theorem start_text_le_iff (ha : a.zulu = false) :
    a.text ≤ r.text ↔ (a.instant ≤ r.instant ∨ StartsLate r a) ∧ ¬ StartsEarly r a := by
  rw [text_le_iff, instant_le_iff, ha, tailText_start]
  unfold StartsLate StartsEarly
  by_cases h : a.second = r.second
  · simp only [h, lt_irrefl, true_and, false_or]
  · simp only [h, false_and, or_false, not_false_iff, and_true]

/-- A bound with an offset from above, as a text. -/
theorem text_le_end_iff (ha : a.zulu = false) :
    r.text ≤ a.text ↔ r.instant ≤ a.instant ∧ ¬ EndsEarly r a := by
  rw [text_le_iff, instant_le_iff, ha, tailText_end]
  unfold EndsEarly
  by_cases h : a.second = r.second
  · simp only [h, lt_irrefl, true_and, false_or]
  · simp only [h, Ne.symm h, false_and, or_false, not_false_iff, and_true]

end Rendering
end Rendering

section Isoformat

/-- A number's digits, as many as asked for. -/
def digits : Nat → Nat → List Digit
  | 0, _ => []
  | width + 1, n => digits width (n / 10) ++ [⟨n % 10, Nat.mod_lt _ (by decide)⟩]

theorem digitText_digits (width n : Nat) : digitText (digits width n) = numeral width n := by
  induction width generalizing n with
  | zero => rfl
  | succ width ih => rw [digits, digitText, List.map_append, ← digitText, ih, numeral]; rfl

theorem length_digits (width n : Nat) : (digits width n).length = width := by
  have hlength := length_numeral width n
  rwa [← digitText_digits, digitText, List.length_map] at hlength

theorem fractionValue_append_digit (ds : List Digit) (d : Digit) :
    fractionValue (ds ++ [d]) = fractionValue ds + d.val / 10 ^ (ds.length + 1) := by
  induction ds with
  | nil => simp [fractionValue]
  | cons e ds ih =>
    rw [List.cons_append, fractionValue, fractionValue, ih, List.length_cons, pow_succ' (10 : Rat) (ds.length + 1)]
    ring

theorem fractionValue_digits {width n : Nat} (hn : n < 10 ^ width) :
    fractionValue (digits width n) = n / 10 ^ width := by
  induction width generalizing n with
  | zero =>
    have hzero : n = 0 := by simpa using hn
    simp [digits, fractionValue, hzero]
  | succ width ih =>
    have hdiv : n / 10 < 10 ^ width := Nat.div_lt_of_lt_mul (by rw [Nat.pow_succ] at hn; omega)
    have hcast : (n : Rat) = 10 * (n / 10 : Nat) + (n % 10 : Nat) := by exact_mod_cast (Nat.div_add_mod n 10).symm
    rw [digits, fractionValue_append_digit, ih hdiv, length_digits, hcast, pow_succ']
    field_simp

/-- `datetime.min` and what comes after it in a microsecond each, to the end of the year 9999. -/
def isDatetime (t : Time) : Prop := inYears (t / 1000000)

instance (t : Time) : Decidable (isDatetime t) := inferInstanceAs (Decidable (inYears _))

/-- How `isoformat` renders a UTC datetime. -/
def Rendering.ofTime (t : Time) (h : isDatetime t) : Rendering where
  second := t / 1000000
  fraction := if t % 1000000 = 0 then [] else digits 6 (t % 1000000).toNat
  zulu := false
  inYears := h

theorem Rendering.instant_ofTime {t : Time} (h : isDatetime t) : (ofTime t h).instant = t / 1000000 := by
  have hsplit : (t : Rat) = 1000000 * (t / 1000000 : Int) + (t % 1000000 : Int) := by
    exact_mod_cast (Int.mul_ediv_add_emod t 1000000).symm
  rw [instant, ofTime]
  dsimp only
  split
  · rename_i hzero
    rw [hzero] at hsplit
    rw [fractionValue]
    push_cast at hsplit
    linarith
  · have hbound : (t % 1000000).toNat < 10 ^ 6 := by omega
    have hcast : (((t % 1000000).toNat : Nat) : Rat) = (t % 1000000 : Int) := by
      exact_mod_cast Int.toNat_of_nonneg (by omega)
    rw [fractionValue_digits hbound, hcast]
    linarith

theorem Rendering.text_ofTime {t : Time} (h : isDatetime t) : (ofTime t h).text = isoformat t := by
  obtain ⟨hyear, hyear'⟩ := civilDate_year_bounds h
  obtain ⟨-, hmonth, hmonth'⟩ := civilDate_monthIndex (t / 1000000 / 86400)
  obtain ⟨hday, hday'⟩ := civilDate_day_bounds (t / 1000000 / 86400)
  have hdate : t / 86400000000 = t / 1000000 / 86400 := (@Int.ediv_ediv_of_nonneg t 1000000 86400 (by decide)).symm
  obtain ⟨n, hn⟩ : ∃ n, (t % 86400000000).toNat = n := ⟨_, rfl⟩
  have hofDay : (t / 1000000 % 86400).toNat = n / 1000000 := by omega
  have hfraction : (t % 1000000).toNat = n % 1000000 := by omega
  have hhour : n / 3600000000 = n / 1000000 / 3600 := by omega
  have hminute : n / 60000000 = n / 1000000 / 60 := (Nat.div_div_eq_div_mul n 1000000 60).symm
  have hzero : t % 1000000 = 0 ↔ n % 1000000 = 0 := by
    rw [← hfraction, Int.toNat_eq_zero]
    exact ⟨le_of_eq, fun hle => le_antisymm hle (Int.emod_nonneg t (by decide))⟩
  rw [← String.toList_inj, text, String.toList_ofList, isoformat, hdate, hn]
  have hlt : n / 1000000 < 86400 := by omega
  simp only [secondText, dateText, timeText, hofDay, String.toList_append, ofTime, hfraction, hzero, hhour, hminute]
  generalize civilDate (t / 1000000 / 86400) = date at *
  obtain ⟨year, month, day⟩ := date
  simp only at hyear hyear' hmonth hmonth' hday hday' ⊢
  rw [toList_padded (by decide) (by omega), toList_padded (by decide) (by omega), toList_padded (by decide) (by omega),
    toList_padded (by decide) (by omega), toList_padded (by decide) (by omega), toList_padded (by decide) (by omega)]
  split
  · simp [tailText, fractionText, zone]
  · rw [String.toList_append, toList_padded (by decide) (by omega), ← digitText_digits 6 (n % 1000000)]
    obtain ⟨d, ds, hdigits⟩ := List.exists_cons_of_length_pos
      (show 0 < (digits 6 (n % 1000000)).length by rw [length_digits]; decide)
    rw [hdigits]
    simp [tailText, fractionText, zone]

end Isoformat
end StockContent.Storage
