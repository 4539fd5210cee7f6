import Mathlib.Data.Nat.Log
import Mathlib.Tactic.Positivity
import Mathlib.Tactic.Ring

/-! Floating point numbers of 64 bits. A finite number is a whole number of the smallest positive ones; what lies
between two numbers is rounded to the nearest, and to the even one halfway. -/
namespace StockContent.Numeric

section Nearest

/-- The whole number nearest to `n / d`, the even one halfway. -/
def nearest (n d : Nat) : Nat :=
  if 2 * (n % d) < d then n / d else if d < 2 * (n % d) then n / d + 1 else n / d + n / d % 2

theorem nearest_bounds (n d : Nat) : n / d ≤ nearest n d ∧ nearest n d ≤ n / d + 1 := by
  unfold nearest
  split
  · omega
  · split <;> omega

/-- A nearest number is at most half away. -/
theorem nearest_error {n d : Nat} (hd : 0 < d) : 2 * n ≤ 2 * (nearest n d * d) + d ∧ 2 * (nearest n d * d) ≤ 2 * n + d := by
  have hsplit : d * (n / d) + n % d = n := Nat.div_add_mod n d
  have hmod : n % d < d := Nat.mod_lt n hd
  have hnext : (n / d + 1) * d = d * (n / d) + d := by ring
  have hsame : n / d * d = d * (n / d) := Nat.mul_comm _ _
  unfold nearest
  split
  · omega
  · split
    · omega
    · rcases Nat.mod_two_eq_zero_or_one (n / d) with heven | hodd
      · rw [heven, Nat.add_zero]
        omega
      · rw [hodd]
        omega

theorem nearest_mul (k : Nat) {d : Nat} (hd : 0 < d) : nearest (k * d) d = k := by
  rw [nearest, Nat.mul_mod_left, Nat.mul_zero, if_pos hd, Nat.mul_div_cancel k hd]

theorem nearest_mono {n d n' d' : Nat} (hd : 0 < d) (hd' : 0 < d') (h : n * d' ≤ n' * d) :
    nearest n d ≤ nearest n' d' := by
  have hfloor : n / d ≤ n' / d' := by
    rw [Nat.le_div_iff_mul_le hd']
    refine Nat.le_of_mul_le_mul_right ?_ hd
    calc n / d * d' * d = n / d * d * d' := by ring
      _ ≤ n * d' := Nat.mul_le_mul_right _ (Nat.div_mul_le_self n d)
      _ ≤ n' * d := h
  rcases Nat.lt_or_ge (n / d) (n' / d') with hlt | hge
  · exact (nearest_bounds n d).2.trans (hlt.trans_le (nearest_bounds n' d').1)
  · have hsame : n' / d' = n / d := Nat.le_antisymm hge hfloor
    have hsplit : d * (n / d) + n % d = n := Nat.div_add_mod n d
    have hsplit' : d' * (n / d) + n' % d' = n' := hsame ▸ Nat.div_add_mod n' d'
    -- The remainders are ordered as the quotients are.
    have hrest : n % d * d' ≤ n' % d' * d := by
      have hexpand : (d * (n / d) + n % d) * d' = d * d' * (n / d) + n % d * d' := by ring
      have hexpand' : (d' * (n / d) + n' % d') * d = d * d' * (n / d) + n' % d' * d := by ring
      rw [← hsplit, ← hsplit', hexpand, hexpand'] at h
      exact Nat.le_of_add_le_add_left h
    have hdown : d' < 2 * (n' % d') ∨ d ≤ 2 * (n % d) → d' ≤ 2 * (n' % d') := by
      rintro (hlt | hle)
      · exact hlt.le
      · refine Nat.le_of_mul_le_mul_right ?_ hd
        calc d' * d = d * d' := Nat.mul_comm _ _
          _ ≤ 2 * (n % d) * d' := Nat.mul_le_mul_right _ hle
          _ = 2 * (n % d * d') := Nat.mul_assoc _ _ _
          _ ≤ 2 * (n' % d' * d) := Nat.mul_le_mul_left _ hrest
          _ = 2 * (n' % d') * d := (Nat.mul_assoc _ _ _).symm
    have hup : d < 2 * (n % d) → d' < 2 * (n' % d') := by
      intro hlt
      refine Nat.lt_of_mul_lt_mul_right (a := d) ?_
      calc d' * d = d * d' := Nat.mul_comm _ _
        _ < 2 * (n % d) * d' := Nat.mul_lt_mul_of_pos_right hlt hd'
        _ = 2 * (n % d * d') := Nat.mul_assoc _ _ _
        _ ≤ 2 * (n' % d' * d) := Nat.mul_le_mul_left _ hrest
        _ = 2 * (n' % d') * d := (Nat.mul_assoc _ _ _).symm
    unfold nearest
    rw [hsame]
    split
    · split
      · exact le_refl _
      · split <;> omega
    · rename_i hlow
      have hmiddle := hdown (.inr (Nat.le_of_not_lt hlow))
      rw [if_neg (Nat.not_lt.mpr hmiddle)]
      split
      · rename_i hhigh
        rw [if_pos (hup hhigh)]
      · split
        · omega
        · exact le_refl _

end Nearest

section Round

/-- How many of the lowest bits of `n / d` a number of 53 bits has no room for. -/
def excess (n d : Nat) : Nat := Nat.log2 (n / d) - 52

def roundUnits (n d : Nat) : Nat := nearest n (d * 2 ^ excess n d) * 2 ^ excess n d

theorem lt_of_excess (n d : Nat) : n / d < 2 ^ (53 + excess n d) := by
  have hlog : n / d < 2 ^ (Nat.log2 (n / d) + 1) := Nat.lt_log2_self
  exact hlog.trans_le (Nat.pow_le_pow_right (by decide) (by rw [excess]; omega))

theorem le_of_excess {n d : Nat} (h : 0 < excess n d) : 2 ^ (52 + excess n d) ≤ n / d := by
  have hlog : 52 + excess n d = Nat.log2 (n / d) := by
    rw [excess] at h ⊢
    omega
  rw [hlog]
  refine Nat.log2_self_le ?_
  intro hzero
  rw [excess, hzero] at h
  exact absurd h (by decide)

theorem roundUnits_le (n : Nat) {d : Nat} (hd : 0 < d) : roundUnits n d ≤ 2 ^ (53 + excess n d) := by
  have hpow : 0 < 2 ^ excess n d := Nat.two_pow_pos _
  have hbound : n * (d * 2 ^ excess n d) ≤ 2 ^ 53 * (d * 2 ^ excess n d) * (d * 2 ^ excess n d) := by
    refine Nat.mul_le_mul_right _ ?_
    have hlt := (Nat.div_lt_iff_lt_mul hd).mp (lt_of_excess n d)
    rw [Nat.pow_add] at hlt
    calc n ≤ 2 ^ 53 * 2 ^ excess n d * d := hlt.le
      _ = 2 ^ 53 * (d * 2 ^ excess n d) := by ring
  have hle := nearest_mono (Nat.mul_pos hd hpow) (Nat.mul_pos hd hpow) hbound
  rw [nearest_mul _ (Nat.mul_pos hd hpow)] at hle
  rw [roundUnits, Nat.pow_add]
  exact Nat.mul_le_mul_right _ hle

theorem le_roundUnits {n d : Nat} (hd : 0 < d) (h : 0 < excess n d) : 2 ^ (52 + excess n d) ≤ roundUnits n d := by
  have hpow : 0 < 2 ^ excess n d := Nat.two_pow_pos _
  have hbound : 2 ^ 52 * (d * 2 ^ excess n d) * (d * 2 ^ excess n d) ≤ n * (d * 2 ^ excess n d) := by
    refine Nat.mul_le_mul_right _ ?_
    have hle := (Nat.le_div_iff_mul_le hd).mp (le_of_excess h)
    rw [Nat.pow_add] at hle
    calc 2 ^ 52 * (d * 2 ^ excess n d) = 2 ^ 52 * 2 ^ excess n d * d := by ring
      _ ≤ n := hle
  have hle := nearest_mono (Nat.mul_pos hd hpow) (Nat.mul_pos hd hpow) hbound
  rw [nearest_mul _ (Nat.mul_pos hd hpow)] at hle
  rw [roundUnits, Nat.pow_add]
  exact Nat.mul_le_mul_right _ hle

/-- Rounding keeps the order. -/
theorem roundUnits_mono {n d n' d' : Nat} (hd : 0 < d) (hd' : 0 < d') (h : n * d' ≤ n' * d) :
    roundUnits n d ≤ roundUnits n' d' := by
  have hquotient : n / d ≤ n' / d' := by
    rw [Nat.le_div_iff_mul_le hd']
    refine Nat.le_of_mul_le_mul_right ?_ hd
    calc n / d * d' * d = n / d * d * d' := by ring
      _ ≤ n * d' := Nat.mul_le_mul_right _ (Nat.div_mul_le_self n d)
      _ ≤ n' * d := h
  have hexcess : excess n d ≤ excess n' d' := by
    have hlog : Nat.log2 (n / d) ≤ Nat.log2 (n' / d') := by
      rw [Nat.log2_eq_log_two, Nat.log2_eq_log_two]
      exact Nat.log_mono_right hquotient
    rw [excess, excess]
    omega
  rcases Nat.lt_or_ge (excess n d) (excess n' d') with hlt | hge
  · calc roundUnits n d ≤ 2 ^ (53 + excess n d) := roundUnits_le n hd
      _ ≤ 2 ^ (52 + excess n' d') := Nat.pow_le_pow_right (by decide) (by omega)
      _ ≤ roundUnits n' d' := le_roundUnits hd' (by omega)
  · have hsame : excess n d = excess n' d' := Nat.le_antisymm hexcess hge
    have hpow : 0 < 2 ^ excess n d := Nat.two_pow_pos _
    rw [roundUnits, roundUnits, ← hsame]
    refine Nat.mul_le_mul_right _ (nearest_mono (Nat.mul_pos hd hpow) (Nat.mul_pos hd' hpow) ?_)
    calc n * (d' * 2 ^ excess n d) = n * d' * 2 ^ excess n d := (Nat.mul_assoc _ _ _).symm
      _ ≤ n' * d * 2 ^ excess n d := Nat.mul_le_mul_right _ h
      _ = n' * (d * 2 ^ excess n d) := Nat.mul_assoc _ _ _

/-- A whole number of 53 bits before its zeros. -/
def Representable (n : Nat) : Prop := ∃ m e, m < 2 ^ 53 ∧ n = m * 2 ^ e

theorem representable_of_lt {n : Nat} (h : n < 2 ^ 53) (e : Nat) : Representable (n * 2 ^ e) := ⟨n, e, h, rfl⟩

theorem representable_of_le {n : Nat} (h : n ≤ 2 ^ 53) (e : Nat) : Representable (n * 2 ^ e) := by
  rcases Nat.lt_or_eq_of_le h with hlt | heq
  · exact representable_of_lt hlt e
  · refine ⟨1, 53 + e, by decide, ?_⟩
    rw [heq, Nat.pow_add, Nat.one_mul]

theorem roundUnits_representable (n : Nat) {d : Nat} (hd : 0 < d) : Representable (roundUnits n d) := by
  have hle := roundUnits_le n hd
  rw [roundUnits, Nat.pow_add] at hle
  exact representable_of_le (Nat.le_of_mul_le_mul_right hle (Nat.two_pow_pos _)) _

/-- A number is rounded to itself. -/
theorem roundUnits_eq_self {n : Nat} (h : Representable n) {d : Nat} (hd : 0 < d) : roundUnits (n * d) d = n := by
  obtain ⟨m, e, hm, rfl⟩ := h
  have hexcess : excess (m * 2 ^ e * d) d ≤ e := by
    rw [excess, Nat.mul_div_cancel _ hd]
    by_cases hzero : m * 2 ^ e = 0
    · rw [hzero]
      exact Nat.zero_le _
    · have hlog : Nat.log2 (m * 2 ^ e) < 53 + e := by
        rw [Nat.log2_lt hzero, Nat.pow_add]
        exact Nat.mul_lt_mul_of_pos_right hm (Nat.two_pow_pos e)
      omega
  rw [roundUnits]
  generalize excess (m * 2 ^ e * d) d = k at hexcess ⊢
  obtain ⟨j, rfl⟩ := Nat.exists_eq_add_of_le hexcess
  have hscaled : m * 2 ^ (k + j) * d = m * 2 ^ j * (d * 2 ^ k) := by ring
  rw [hscaled, nearest_mul _ (Nat.mul_pos hd (Nat.two_pow_pos k))]
  ring

/-- Rounding a whole number at most doubles it. -/
theorem roundUnits_le_double (n : Nat) : roundUnits n 1 ≤ 2 * n := by
  rcases Nat.eq_zero_or_pos (excess n 1) with hzero | hpos
  · rw [roundUnits, hzero, Nat.pow_zero, Nat.mul_one, Nat.mul_one]
    have hexact := nearest_mul n Nat.one_pos
    rw [Nat.mul_one] at hexact
    omega
  · have hlow := le_of_excess hpos
    rw [Nat.div_one, Nat.pow_add] at hlow
    have herror := (nearest_error (n := n) (d := 1 * 2 ^ excess n 1) (by rw [Nat.one_mul]; exact Nat.two_pow_pos _)).2
    rw [Nat.one_mul] at herror
    rw [roundUnits, Nat.one_mul]
    have hsmall : 2 ^ excess n 1 ≤ n := le_trans (Nat.le_mul_of_pos_left _ (by decide)) hlow
    omega

end Round

/-- A floating point number; a finite one counts the smallest positive number, `2 ^ -1074`. -/
inductive Binary64 where
  | finite (units : Int)
  | infinite (negative : Bool)
  | nan
  deriving DecidableEq, Repr

namespace Binary64

def leastExponent : Nat := 1074

def greatestExponent : Nat := 1024

/-- How many of the smallest positive numbers make one. -/
def one : Nat := 2 ^ leastExponent

/-- The first number of units that is too large. -/
@[irreducible] def limit : Nat := 2 ^ greatestExponent * one

/-- The number nearest to `n / d` units. -/
@[irreducible] def ofQuotient (n : Int) (d : Nat) : Binary64 :=
  if roundUnits n.natAbs d < limit then .finite (if n < 0 then -roundUnits n.natAbs d else roundUnits n.natAbs d)
  else .infinite (n < 0)

def ofNat (n : Nat) : Binary64 := ofQuotient (n * one : Nat) 1

/-- The number nearest to `n / 10 ^ places`. -/
def ofDecimal (n places : Nat) : Binary64 := ofQuotient (n * one : Nat) (10 ^ places)

def neg : Binary64 → Binary64
  | finite a => finite (-a)
  | infinite negative => infinite !negative
  | nan => nan

def abs : Binary64 → Binary64
  | finite a => finite a.natAbs
  | infinite _ => infinite false
  | nan => nan

def add : Binary64 → Binary64 → Binary64
  | finite a, finite b => ofQuotient (a + b) 1
  | infinite s, infinite t => if s = t then infinite s else nan
  | infinite s, finite _ => infinite s
  | finite _, infinite t => infinite t
  | nan, _ | _, nan => nan

def sub (x y : Binary64) : Binary64 := x.add y.neg

def mul : Binary64 → Binary64 → Binary64
  | finite a, finite b => ofQuotient (a * b) one
  | infinite s, infinite t => infinite (s != t)
  | infinite s, finite b => if b = 0 then nan else infinite (s != decide (b < 0))
  | finite a, infinite t => if a = 0 then nan else infinite (t != decide (a < 0))
  | nan, _ | _, nan => nan

def le : Binary64 → Binary64 → Bool
  | nan, _ | _, nan => false
  | infinite true, _ | _, infinite false => true
  | infinite false, _ | _, infinite true => false
  | finite a, finite b => a ≤ b

def lt (x y : Binary64) : Bool := x.le y && !y.le x

/-- `round(x, places)`. -/
def roundPlaces (places : Nat) : Binary64 → Binary64
  | finite a => ofQuotient (a.sign * nearest (a.natAbs * 10 ^ places) one * one) (10 ^ places)
  | x => x

/-- Every number but zero, and what is no number. -/
def isTrue : Binary64 → Bool
  | finite a => a ≠ 0
  | _ => true

section Naturals

theorem one_pos : 0 < one := Nat.two_pow_pos leastExponent

theorem representable_one {n : Nat} (h : n ≤ 2 ^ 53) : Representable (n * one) := representable_of_le h leastExponent

/-- A natural number of at most 53 bits. -/
def natural (n : Nat) : Binary64 := .finite (n * one : Nat)

theorem ofQuotient_natural {n : Nat} (h : n ≤ 2 ^ 53) {d : Nat} (hd : 0 < d) :
    ofQuotient (n * one * d : Nat) d = natural n := by
  have hunits : roundUnits (n * one * d) d = n * one := roundUnits_eq_self (representable_one h) hd
  have hlimit : n * one < limit := by
    have hexponent : 53 < greatestExponent := by decide
    unfold limit
    exact Nat.mul_lt_mul_of_pos_right (h.trans_lt (Nat.pow_lt_pow_right Nat.one_lt_two hexponent)) one_pos
  rw [ofQuotient, Int.natAbs_natCast, hunits, if_pos hlimit, if_neg (Int.not_lt.mpr (Int.natCast_nonneg _)), natural]

theorem ofNat_natural {n : Nat} (h : n ≤ 2 ^ 53) : ofNat n = natural n := by
  rw [ofNat, ← ofQuotient_natural h Nat.one_pos, Nat.mul_one]

theorem add_natural {n m : Nat} (h : n + m ≤ 2 ^ 53) : (natural n).add (natural m) = natural (n + m) := by
  have hsum : ((n * one : Nat) : Int) + (m * one : Nat) = ((n + m) * one * 1 : Nat) := by
    rw [Nat.mul_one, Nat.add_mul, Nat.cast_add]
  rw [natural, natural, add, hsum, ofQuotient_natural h Nat.one_pos]

theorem mul_natural {n m : Nat} (h : n * m ≤ 2 ^ 53) : (natural n).mul (natural m) = natural (n * m) := by
  have hproduct : ((n * one : Nat) : Int) * (m * one : Nat) = (n * m * one * one : Nat) := by
    rw [← Nat.cast_mul]
    generalize one = u
    congr 1
    ring
  rw [natural, natural, mul, hproduct, ofQuotient_natural h one_pos]

theorem natural_inj {n m : Nat} : natural n = natural m ↔ n = m := by
  rw [natural, natural, finite.injEq, Nat.cast_inj, Nat.mul_right_cancel_iff one_pos]

theorem isTrue_natural (n : Nat) : (natural n).isTrue = decide (n ≠ 0) := by
  rw [natural, isTrue, decide_eq_decide, ne_eq, ne_eq, Nat.cast_eq_zero, Nat.mul_eq_zero]
  exact not_congr (or_iff_left one_pos.ne')

/-- What is not negative and, where it is finite, at most `n`. -/
def AtMost (n : Nat) : Binary64 → Prop
  | finite a => 0 ≤ a ∧ a ≤ (n * one : Nat)
  | infinite negative => negative = false
  | nan => False

theorem atMost_finite {n : Nat} {a : Int} : (finite a).AtMost n ↔ 0 ≤ a ∧ a ≤ (n * one : Nat) := Iff.rfl

theorem atMost_infinite {n : Nat} {negative : Bool} : (infinite negative).AtMost n ↔ negative = false := Iff.rfl

theorem atMost_natural {n m : Nat} (h : n ≤ m) : (natural n).AtMost m :=
  ⟨Int.natCast_nonneg _, Int.ofNat_le.mpr (Nat.mul_le_mul_right _ h)⟩

theorem AtMost.mono {n m : Nat} {x : Binary64} (h : x.AtMost n) (hle : n ≤ m) : x.AtMost m := by
  cases x with
  | nan => cases h
  | infinite negative => exact h
  | finite a =>
    obtain ⟨ha, hn⟩ := atMost_finite.mp h
    exact atMost_finite.mpr ⟨ha, hn.trans (Int.ofNat_le.mpr (Nat.mul_le_mul_right _ hle))⟩

theorem atMost_ofQuotient {a : Int} {d n : Nat} (ha : 0 ≤ a) (h : roundUnits a.natAbs d ≤ n * one) :
    (ofQuotient a d).AtMost n := by
  rw [ofQuotient, if_neg (Int.not_lt.mpr ha)]
  by_cases hlimit : roundUnits a.natAbs d < limit
  · rw [if_pos hlimit, atMost_finite]
    exact ⟨Int.natCast_nonneg _, Int.ofNat_le.mpr h⟩
  · rw [if_neg hlimit, atMost_infinite]
    exact decide_eq_false (Int.not_lt.mpr ha)

/-- Rounding at most doubles a sum. -/
theorem AtMost.add {n m : Nat} {x y : Binary64} (hx : x.AtMost n) (hy : y.AtMost m) :
    (x.add y).AtMost (2 * (n + m)) := by
  cases x with
  | nan => cases hx
  | infinite s =>
    obtain rfl : s = false := hx
    cases y with
    | nan => cases hy
    | infinite t =>
      obtain rfl : t = false := hy
      exact atMost_infinite.mpr rfl
    | finite b => exact atMost_infinite.mpr rfl
  | finite a =>
    cases y with
    | nan => cases hy
    | infinite t =>
      obtain rfl : t = false := hy
      exact atMost_infinite.mpr rfl
    | finite b =>
      obtain ⟨ha, han⟩ := atMost_finite.mp hx
      obtain ⟨hb, hbm⟩ := atMost_finite.mp hy
      have hbound : (a + b).natAbs ≤ (n + m) * one := by
        rw [Nat.add_mul]
        omega
      rw [Binary64.add]
      refine atMost_ofQuotient (Int.add_nonneg ha hb) ?_
      calc roundUnits (a + b).natAbs 1 ≤ 2 * (a + b).natAbs := roundUnits_le_double _
        _ ≤ 2 * ((n + m) * one) := Nat.mul_le_mul_left _ hbound
        _ = 2 * (n + m) * one := (Nat.mul_assoc _ _ _).symm

theorem le_of_atMost {n m : Nat} (h : (natural n).AtMost m) : n ≤ m :=
  Nat.le_of_mul_le_mul_right (Int.ofNat_le.mp (atMost_finite.mp h).2) one_pos

end Naturals

section Order

theorem le_infinite (x : Binary64) (h : x ≠ nan) : x.le (infinite false) = true := by
  cases x with
  | finite a => rfl
  | infinite negative => cases negative <;> rfl
  | nan => exact absurd rfl h

theorem le_finite {a b : Int} (h : a ≤ b) : (finite a).le (finite b) = true := decide_eq_true h

/-- What is not negative, as it is stored. -/
def Magnitude : Binary64 → Prop
  | finite a => 0 ≤ a ∧ Representable a.natAbs
  | infinite negative => negative = false
  | nan => False

theorem Magnitude.ne_nan {x : Binary64} (h : x.Magnitude) : x ≠ nan := by
  rintro rfl
  exact h

theorem Magnitude.le_self {x : Binary64} (h : x.Magnitude) : x.le x = true := by
  cases x with
  | finite a => exact le_finite (Int.le_refl a)
  | infinite negative => cases negative <;> rfl
  | nan => exact h.elim

theorem ofQuotient_of_nonneg {a : Int} (ha : 0 ≤ a) (d : Nat) : ofQuotient a d =
    if roundUnits a.natAbs d < limit then finite (roundUnits a.natAbs d) else infinite false := by
  rw [ofQuotient, if_neg (Int.not_lt.mpr ha), decide_eq_false (Int.not_lt.mpr ha)]

theorem magnitude_ofQuotient {a : Int} (ha : 0 ≤ a) {d : Nat} (hd : 0 < d) : (ofQuotient a d).Magnitude := by
  rw [ofQuotient_of_nonneg ha]
  split
  · exact ⟨Int.natCast_nonneg _, roundUnits_representable _ hd⟩
  · rfl

theorem magnitude_natural {n : Nat} (h : n ≤ 2 ^ 53) : (natural n).Magnitude :=
  ⟨Int.natCast_nonneg _, representable_one h⟩

theorem Magnitude.add {x y : Binary64} (hx : x.Magnitude) (hy : y.Magnitude) : (x.add y).Magnitude := by
  cases x with
  | nan => exact hx.elim
  | infinite s =>
    obtain rfl : s = false := hx
    cases y with
    | nan => exact hy.elim
    | infinite t =>
      obtain rfl : t = false := hy
      exact rfl
    | finite b => exact rfl
  | finite a =>
    cases y with
    | nan => exact hy.elim
    | infinite t => exact hy
    | finite b => exact magnitude_ofQuotient (Int.add_nonneg hx.1 hy.1) Nat.one_pos

theorem Magnitude.mul {x : Binary64} (hx : x.Magnitude) {b : Int} (hb : 0 < b) : (x.mul (finite b)).Magnitude := by
  cases x with
  | nan => exact hx.elim
  | infinite s =>
    obtain rfl : s = false := hx
    rw [Binary64.mul, if_neg hb.ne', decide_eq_false (Int.not_lt.mpr hb.le)]
    rfl
  | finite a => exact magnitude_ofQuotient (Int.mul_nonneg hx.1 hb.le) one_pos

theorem magnitude_ofNat {n : Nat} (h : n ≤ 2 ^ 53) : (ofNat n).Magnitude := by
  rw [ofNat_natural h]
  exact magnitude_natural h

theorem Magnitude.mul_ofNat {x : Binary64} (hx : x.Magnitude) {n : Nat} (hn : 0 < n) (h : n ≤ 2 ^ 53) :
    (x.mul (ofNat n)).Magnitude := by
  rw [ofNat_natural h, natural]
  exact hx.mul (Int.natCast_pos.mpr (Nat.mul_pos hn one_pos))

/-- Rounding keeps the order, also where it leaves the finite numbers. -/
theorem ofQuotient_le {a b : Int} (ha : 0 ≤ a) (hb : 0 ≤ b) {d d' : Nat} (hd : 0 < d) (hd' : 0 < d')
    (h : a.natAbs * d' ≤ b.natAbs * d) : (ofQuotient a d).le (ofQuotient b d') = true := by
  have hmono := roundUnits_mono hd hd' h
  rw [ofQuotient_of_nonneg ha, ofQuotient_of_nonneg hb]
  by_cases hlimit : roundUnits b.natAbs d' < limit
  · rw [if_pos hlimit, if_pos (hmono.trans_lt hlimit)]
    exact le_finite (Int.ofNat_le.mpr hmono)
  · rw [if_neg hlimit]
    refine le_infinite _ ?_
    split <;> exact Binary64.noConfusion

theorem natAbs_mono {a b : Int} (ha : 0 ≤ a) (h : a ≤ b) : a.natAbs ≤ b.natAbs := by omega

theorem mul_le_mul_of_factor_le {x : Binary64} (hx : x.Magnitude) {b c : Int} (hb : 0 < b) (h : b ≤ c) :
    (x.mul (finite b)).le (x.mul (finite c)) = true := by
  cases x with
  | nan => exact hx.elim
  | infinite s =>
    obtain rfl : s = false := hx
    have hc : 0 < c := hb.trans_le h
    rw [mul, mul, if_neg hb.ne', if_neg hc.ne', decide_eq_false (Int.not_lt.mpr hb.le),
      decide_eq_false (Int.not_lt.mpr hc.le)]
    rfl
  | finite a =>
    have hc : 0 ≤ c := hb.le.trans h
    refine ofQuotient_le (Int.mul_nonneg hx.1 hb.le) (Int.mul_nonneg hx.1 hc) one_pos one_pos ?_
    rw [Int.natAbs_mul, Int.natAbs_mul]
    exact Nat.mul_le_mul_right _ (Nat.mul_le_mul_left _ (natAbs_mono hb.le h))

theorem mul_le_mul_of_le {x y : Binary64} (hx : x.Magnitude) (hy : y.Magnitude) (h : x.le y = true) {b : Int}
    (hb : 0 < b) : (x.mul (finite b)).le (y.mul (finite b)) = true := by
  cases y with
  | nan => exact hy.elim
  | infinite t =>
    obtain rfl : t = false := hy
    have hinfinite : (infinite false).mul (finite b) = infinite false := by
      rw [mul, if_neg hb.ne', decide_eq_false (Int.not_lt.mpr hb.le)]
      rfl
    rw [hinfinite]
    exact le_infinite _ (hx.mul hb).ne_nan
  | finite c =>
    cases x with
    | nan => exact hx.elim
    | infinite s =>
      obtain rfl : s = false := hx
      cases h
    | finite a =>
      have hac : a ≤ c := of_decide_eq_true h
      refine ofQuotient_le (Int.mul_nonneg hx.1 hb.le) (Int.mul_nonneg hy.1 hb.le) one_pos one_pos ?_
      rw [Int.natAbs_mul, Int.natAbs_mul]
      exact Nat.mul_le_mul_right _ (Nat.mul_le_mul_right _ (natAbs_mono hx.1 hac))

theorem mul_ofNat_le {x y : Binary64} (hx : x.Magnitude) (hy : y.Magnitude) (h : x.le y = true) {n : Nat} (hn : 0 < n)
    (hsmall : n ≤ 2 ^ 53) : (x.mul (ofNat n)).le (y.mul (ofNat n)) = true := by
  rw [ofNat_natural hsmall, natural]
  exact mul_le_mul_of_le hx hy h (Int.natCast_pos.mpr (Nat.mul_pos hn one_pos))

theorem two_pow_add_leastExponent (k : Nat) : 2 ^ (k + leastExponent) = 2 ^ k * one := by
  rw [one, Nat.pow_add]

theorem two_pow_eight : 2 ^ (3 + leastExponent) = 8 * one := by
  rw [two_pow_add_leastExponent, show 2 ^ 3 = 8 by decide]

/-- Taking one from a large number does not lower it. -/
theorem le_roundUnits_sub_one {a : Nat} (ha : Representable a) (h : 2 ^ 55 * one + one ≤ a) :
    a ≤ roundUnits (a - one) 1 := by
  have hlog : 2 ^ (55 + leastExponent) ≤ a - one := by
    rw [two_pow_add_leastExponent]
    exact Nat.le_sub_of_add_le h
  have hexcess : 3 + leastExponent ≤ excess (a - one) 1 := by
    have hle : 55 + leastExponent ≤ Nat.log2 (a - one) := by
      refine (Nat.le_log2 ?_).mpr hlog
      exact (lt_of_lt_of_le (Nat.two_pow_pos _) hlog).ne'
    rw [excess, Nat.div_one]
    omega
  have hlarge : 8 * one ≤ 2 ^ excess (a - one) 1 := by
    calc 8 * one = 2 ^ (3 + leastExponent) := two_pow_eight.symm
      _ ≤ 2 ^ excess (a - one) 1 := Nat.pow_le_pow_right (by decide) hexcess
  have hlow := le_of_excess (show 0 < excess (a - one) 1 by omega)
  rw [Nat.div_one] at hlow
  rw [roundUnits, Nat.one_mul]
  generalize excess (a - one) 1 = k at hlarge hlow ⊢
  -- The number is a whole number of the steps that the rounding takes below it.
  obtain ⟨j, rfl⟩ : ∃ j, a = j * 2 ^ k := by
    obtain ⟨m, e, hm, rfl⟩ := ha
    have hexponent : k ≤ e := by
      by_contra hlt
      have hsmall : 2 ^ (e + 1) ≤ 2 ^ k := Nat.pow_le_pow_right (by decide) (by omega)
      have hproduct : m * 2 ^ e < 2 ^ 53 * 2 ^ e := Nat.mul_lt_mul_of_pos_right hm (Nat.two_pow_pos e)
      rw [Nat.pow_succ] at hsmall
      rw [Nat.pow_add] at hlow
      omega
    obtain ⟨i, rfl⟩ := Nat.exists_eq_add_of_le hexponent
    exact ⟨m * 2 ^ i, by rw [Nat.pow_add]; ring⟩
  refine Nat.mul_le_mul_right _ (Nat.le_of_not_lt ?_)
  intro hlt
  have herror := (nearest_error (n := j * 2 ^ k - one) (Nat.two_pow_pos k)).1
  have hbelow : (nearest (j * 2 ^ k - one) (2 ^ k) + 1) * 2 ^ k ≤ j * 2 ^ k := Nat.mul_le_mul_right _ hlt
  have hone := one_pos
  rw [Nat.add_mul, Nat.one_mul] at hbelow
  omega

/-- A step of at least ten forward covers one step back. -/
theorem le_add_sub_one {x : Binary64} (hx : x.Magnitude) {s : Nat} (hleast : 10 ≤ s) (hmost : s ≤ 100) :
    x.le ((x.add (natural s)).sub (natural 1)) = true ∧ ((x.add (natural s)).sub (natural 1)).Magnitude := by
  have hback : (natural 1).neg = finite (-(one : Int)) := by
    rw [natural, neg, Nat.one_mul]
  rw [sub, hback]
  cases x with
  | nan => exact hx.elim
  | infinite t =>
    obtain rfl : t = false := hx
    exact ⟨rfl, rfl⟩
  | finite a =>
    obtain ⟨n, rfl⟩ := Int.eq_ofNat_of_zero_le hx.1
    have hn : Representable n := hx.2
    have hsum : (finite (n : Int)).add (natural s) = ofQuotient ((n + s * one : Nat) : Int) 1 := by
      rw [natural, add, Nat.cast_add]
    rw [hsum, ofQuotient_of_nonneg (Int.natCast_nonneg _), Int.natAbs_natCast]
    by_cases hlimit : roundUnits (n + s * one) 1 < limit
    case neg =>
      rw [if_neg hlimit]
      exact ⟨rfl, rfl⟩
    rw [if_pos hlimit]
    have hself : roundUnits n 1 = n := by
      have hexact := roundUnits_eq_self hn Nat.one_pos
      rwa [Nat.mul_one] at hexact
    have hsteps : 10 * one ≤ s * one ∧ s * one ≤ 100 * one :=
      ⟨Nat.mul_le_mul_right _ hleast, Nat.mul_le_mul_right _ hmost⟩
    have hforward : n ≤ roundUnits (n + s * one) 1 := by
      have hmono : roundUnits n 1 ≤ roundUnits (n + s * one) 1 := roundUnits_mono Nat.one_pos Nat.one_pos (by omega)
      rwa [hself] at hmono
    have hback : one ≤ roundUnits (n + s * one) 1 ∧ n ≤ roundUnits (roundUnits (n + s * one) 1 - one) 1 := by
      by_cases hsmall : n + s * one < 2 ^ 56 * one
      · have hnear : n + s * one ≤ roundUnits (n + s * one) 1 + 4 * one := by
          have hexcess : excess (n + s * one) 1 ≤ 3 + leastExponent := by
            have hlog : Nat.log2 (n + s * one) < 56 + leastExponent := by
              rw [Nat.log2_lt (by have := one_pos; omega), two_pow_add_leastExponent]
              exact hsmall
            rw [excess, Nat.div_one]
            omega
          have hstep : 2 ^ excess (n + s * one) 1 ≤ 8 * one := by
            calc 2 ^ excess (n + s * one) 1 ≤ 2 ^ (3 + leastExponent) := Nat.pow_le_pow_right (by decide) hexcess
              _ = 8 * one := two_pow_eight
          have herror := (nearest_error (n := n + s * one) (Nat.two_pow_pos (excess (n + s * one) 1))).1
          rw [roundUnits, Nat.one_mul]
          omega
        refine ⟨by omega, ?_⟩
        calc n = roundUnits n 1 := hself.symm
          _ ≤ roundUnits (roundUnits (n + s * one) 1 - one) 1 :=
            roundUnits_mono Nat.one_pos Nat.one_pos (by omega)
      · have hone := one_pos
        refine ⟨by omega, ?_⟩
        calc n ≤ roundUnits (n - one) 1 := le_roundUnits_sub_one hn (by omega)
          _ ≤ roundUnits (roundUnits (n + s * one) 1 - one) 1 :=
            roundUnits_mono Nat.one_pos Nat.one_pos (by omega)
    have hdifference : ((roundUnits (n + s * one) 1 : Nat) : Int) + -(one : Int) =
        ((roundUnits (n + s * one) 1 - one : Nat) : Int) := by
      rw [Nat.cast_sub hback.1, Int.sub_eq_add_neg]
    rw [add, hdifference]
    refine ⟨?_, magnitude_ofQuotient (Int.natCast_nonneg _) Nat.one_pos⟩
    rw [ofQuotient_of_nonneg (Int.natCast_nonneg _), Int.natAbs_natCast]
    split
    · exact le_finite (Int.ofNat_le.mpr hback.2)
    · rfl

/-- The distance of two numbers does not depend on their order. -/
theorem abs_sub_comm (x y : Binary64) : (x.sub y).abs = (y.sub x).abs := by
  cases x with
  | nan => cases y <;> rfl
  | infinite s =>
    cases y with
    | nan => rfl
    | finite b => rfl
    | infinite t => cases s <;> cases t <;> rfl
  | finite a =>
    cases y with
    | nan => rfl
    | infinite t => rfl
    | finite b =>
      have hopposite : (a + -b).natAbs = (b + -a).natAbs := by omega
      rw [sub, sub, neg, neg, add, add, ofQuotient, ofQuotient, hopposite]
      split
      · split <;> split <;> simp [abs]
      · rfl

/-- A finite number has no distance from itself, an infinite one has none that is a number. -/
theorem abs_sub_self_lt {x : Binary64} (hx : x.Magnitude) {bound : Int} (hbound : 0 < bound) :
    (x.sub x).abs.lt (finite bound) = true ↔ x ≠ infinite false := by
  cases x with
  | nan => exact hx.elim
  | infinite s =>
    obtain rfl : s = false := hx
    exact iff_of_false Bool.false_ne_true (by simp)
  | finite a =>
    refine iff_of_true ?_ Binary64.noConfusion
    have hzero : (finite a).sub (finite a) = finite 0 := by
      have hexact := ofQuotient_natural (Nat.zero_le (2 ^ 53)) Nat.one_pos
      rw [Nat.zero_mul, Nat.zero_mul, natural, Nat.zero_mul] at hexact
      rw [sub, neg, add, Int.add_right_neg]
      exact hexact
    rw [hzero, abs, lt]
    simp [le, hbound, hbound.le]

end Order
end Binary64
end StockContent.Numeric
