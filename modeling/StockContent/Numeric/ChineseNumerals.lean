import Mathlib.Algebra.Order.Ring.Nat
import StockContent.Numeric.Binary64

/-! Chinese numerals: how they are written, and how the parser of spoken numbers reads them. -/
namespace StockContent.Numeric

section Parser

def cnDigit : Char → Option Nat
  | '零' => some 0 | '一' => some 1 | '二' => some 2 | '两' => some 2 | '三' => some 3 | '四' => some 4 | '五' => some 5
  | '六' => some 6 | '七' => some 7 | '八' => some 8 | '九' => some 9 | _ => none

def cnSmallUnit : Char → Option Nat
  | '十' => some 10 | '百' => some 100 | '千' => some 1000 | _ => none

def cnBigUnit : Char → Option Nat
  | '万' => some 10000 | '亿' => some 100000000 | _ => none

structure CnState where
  total : Binary64
  sectionSum : Binary64
  digit : Binary64
  seen : Bool
  lastSmallUnit : Nat
  zeroSeen : Bool

def CnState.initial : CnState := ⟨.natural 0, .natural 0, .natural 0, false, 1, false⟩

def cnStep (s : CnState) (ch : Char) : Option CnState :=
  match cnDigit ch with
  | some d => some { s with digit := .ofNat d, zeroSeen := s.zeroSeen || ch = '零', seen := true }
  | none =>
    match cnSmallUnit ch with
    | some unit =>
      let count := if s.digit.isTrue then s.digit else .ofNat 1
      some { s with
        sectionSum := s.sectionSum.add (count.mul (.ofNat unit))
        digit := .natural 0, lastSmallUnit := unit, zeroSeen := false, seen := true }
    | none =>
      match cnBigUnit ch with
      | some unit =>
        some {
          total := s.total.add ((s.sectionSum.add s.digit).mul (.ofNat unit))
          sectionSum := .natural 0, digit := .natural 0, lastSmallUnit := 1, zeroSeen := false, seen := true }
      | none => none

/-- `一百五` is 150: a last digit counts a tenth of the unit before it, unless there is a `零` between them. -/
def CnState.value (s : CnState) : Binary64 :=
  let digit := if s.digit.isTrue && 10 ≤ s.lastSmallUnit && !s.zeroSeen then
      s.digit.mul (.ofNat (max (s.lastSmallUnit / 10) 1))
    else s.digit
  (s.total.add s.sectionSum).add digit

def parseCnNumber (text : List Char) : Option Binary64 :=
  if text.isEmpty then none
  else (text.foldlM cnStep .initial).bind fun s => if s.seen then some s.value else none

end Parser

section Numerals

def digitWord (d : Nat) : Char := "零一二三四五六七八九".toList.getD d '零'

/-- The largest unit that a number of at least ten contains. -/
def leadingUnit (n : Nat) : Nat :=
  if 100000000 ≤ n then 100000000 else if 10000 ≤ n then 10000 else if 1000 ≤ n then 1000
  else if 100 ≤ n then 100 else 10

def unitWord (n : Nat) : Char :=
  if 100000000 ≤ n then '亿' else if 10000 ≤ n then '万' else if 1000 ≤ n then '千' else if 100 ≤ n then '百' else '十'

theorem leadingUnit_bounds {n : Nat} (h : 10 ≤ n) : 10 ≤ leadingUnit n ∧ leadingUnit n ≤ n := by
  unfold leadingUnit
  split_ifs <;> omega

/-- A number by its largest unit: how many of it there are, and the rest, after a `零` where the rest does not
reach the next place. -/
def spoken (n : Nat) : List Char :=
  if h : n < 10 then [digitWord n]
  else
    have hbounds := leadingUnit_bounds (Nat.le_of_not_lt h)
    have hcount : n / leadingUnit n < n := Nat.div_lt_self (by omega) (by omega)
    have hrest : n % leadingUnit n < n := (Nat.mod_lt n (by omega)).trans_le hbounds.2
    spoken (n / leadingUnit n) ++ unitWord n ::
      if n % leadingUnit n = 0 then []
      else if n % leadingUnit n < leadingUnit n / 10 then '零' :: spoken (n % leadingUnit n)
      else spoken (n % leadingUnit n)

/-- The standard numeral of a number; `一` is left out of a leading `一十`. -/
def numeralOf (n : Nat) : List Char :=
  match spoken n with
  | '一' :: '十' :: rest => '十' :: rest
  | text => text

theorem spoken_digit {n : Nat} (h : n < 10) : spoken n = [digitWord n] := by
  rw [spoken, dif_pos h]

/-- The rest after a unit. -/
def spokenRest (place rest : Nat) : List Char :=
  if rest = 0 then [] else if rest < place then '零' :: spoken rest else spoken rest

theorem spoken_unit {n : Nat} (h : 10 ≤ n) : spoken n =
    spoken (n / leadingUnit n) ++ unitWord n :: spokenRest (leadingUnit n / 10) (n % leadingUnit n) := by
  rw [spoken, dif_neg (Nat.not_lt.mpr h)]
  rfl

end Numerals

section Steps
open Binary64

/-- A number of chunks below 1 0000 is read with the total apart. -/
def readingState (total : Binary64) (s d : Nat) (seen : Bool) (unit : Nat) (zero : Bool) : CnState :=
  ⟨total, natural s, natural d, seen, unit, zero⟩

variable {total : Binary64} {s d unit : Nat} {seen zero : Bool}

theorem cnDigit_digitWord {n : Nat} (h : n < 10) :
    cnDigit (digitWord n) = some n ∧ decide (digitWord n = '零') = decide (n = 0) := by
  have hcheck : ∀ n : Fin 10, cnDigit (digitWord n) = some n.val ∧ decide (digitWord n = '零') = decide (n.val = 0) := by
    decide
  exact hcheck ⟨n, h⟩

theorem step_digit {n : Nat} (h : n < 10) : cnStep (readingState total s d seen unit zero) (digitWord n) =
    some (readingState total s n true unit (zero || n = 0)) := by
  obtain ⟨hdigit, hzero⟩ := cnDigit_digitWord h
  simp only [cnStep, hdigit, readingState, hzero, ofNat_natural (show n ≤ 2 ^ 53 by omega)]

theorem step_zero : cnStep (readingState total s d seen unit zero) '零' =
    some (readingState total s 0 true unit true) := by
  have h := @step_digit total s d unit seen zero 0 (by decide)
  rwa [decide_eq_true rfl, Bool.or_true] at h

theorem step_small {u : Nat} {c : Char} (hc : cnDigit c = none) (hu : cnSmallUnit c = some u) (hd : 1 ≤ d)
    (hbound : s + d * u ≤ 2 ^ 53) : cnStep (readingState total s d seen unit zero) c =
      some (readingState total (s + d * u) 0 true u false) := by
  have hu' : u ≤ 2 ^ 53 := (Nat.le_mul_of_pos_left u hd).trans ((Nat.le_add_left _ _).trans hbound)
  have hproduct : d * u ≤ 2 ^ 53 := (Nat.le_add_left _ _).trans hbound
  have hcount : (natural d).isTrue = true := by
    rw [isTrue_natural]
    exact decide_eq_true (Nat.ne_of_gt hd)
  simp only [cnStep, hc, hu, readingState, hcount, if_true, ofNat_natural hu', mul_natural hproduct, add_natural hbound]

theorem step_big {u : Nat} {c : Char} (hc : cnDigit c = none) (hs : cnSmallUnit c = none) (hu : cnBigUnit c = some u)
    (hd : s + d ≤ 2 ^ 53) (hu' : u ≤ 2 ^ 53) (hbound : (s + d) * u ≤ 2 ^ 53) :
    cnStep (readingState total s d seen unit zero) c =
      some (readingState (total.add (natural ((s + d) * u))) 0 0 true 1 false) := by
  simp only [cnStep, hc, hs, hu, readingState, add_natural hd, ofNat_natural hu', mul_natural hbound]

theorem run_append {s s' : CnState} {text more : List Char} (h : text.foldlM cnStep s = some s') :
    (text ++ more).foldlM cnStep s = more.foldlM cnStep s' := by
  rw [List.foldlM_append, h, Option.bind_eq_bind, Option.bind_some]

theorem run_cons {s s' : CnState} {c : Char} {more : List Char} (h : cnStep s c = some s') :
    (c :: more).foldlM cnStep s = more.foldlM cnStep s' := by
  rw [List.foldlM_cons, h, Option.bind_eq_bind, Option.bind_some]

/-- A last digit is not taken for one of the next lower place. -/
def Settled (d unit : Nat) (zero : Bool) : Prop := d = 0 ∨ unit = 1 ∨ unit = 10 ∨ zero = true

/-- A text is read, and its last digit counts as one. -/
def Reads (state : CnState) (text : List Char) (total : Binary64) (s d : Nat) : Prop :=
  ∃ unit zero, text.foldlM cnStep state = some (readingState total s d true unit zero) ∧ Settled d unit zero

theorem reads_append {state state' : CnState} {text more : List Char} {total' : Binary64} {s' d' : Nat}
    (hrun : text.foldlM cnStep state = some state') (h : Reads state' more total' s' d') :
    Reads state (text ++ more) total' s' d' := by
  rw [Reads, run_append hrun]
  exact h

theorem reads_cons {state state' : CnState} {c : Char} {more : List Char} {total' : Binary64} {s' d' : Nat}
    (hstep : cnStep state c = some state') (h : Reads state' more total' s' d') :
    Reads state (c :: more) total' s' d' := by
  rw [Reads, run_cons hstep]
  exact h

/-- The rest after a unit is read as the number it is. -/
theorem reads_rest {place rest : Nat} {total' : Binary64} {s' d' : Nat}
    (hnone : rest = 0 → total' = total ∧ s' = s ∧ d' = 0)
    (hplace : place ≤ rest → rest < 10 → Settled rest unit false)
    (hrest : ∀ zero, (rest < 10 → Settled rest unit zero) →
      Reads (readingState total s 0 true unit zero) (spoken rest) total' s' d') :
    Reads (readingState total s 0 true unit false) (spokenRest place rest) total' s' d' := by
  rw [spokenRest]
  split
  case isTrue hzero =>
    obtain ⟨rfl, rfl, rfl⟩ := hnone hzero
    exact ⟨unit, false, rfl, .inl rfl⟩
  case isFalse =>
    split
    case isTrue =>
      exact reads_cons step_zero (hrest true fun _ => .inr (.inr (.inr rfl)))
    case isFalse hge => exact hrest false (hplace (Nat.le_of_not_lt hge))

/-- A number below 1 0000 is counted in the section and in the last digit. -/
theorem reads_section {n : Nat} (hn : n < 10000) (hs : s + n ≤ 2 ^ 53) (hsettled : n < 10 → Settled n unit zero) :
    Reads (readingState total s 0 seen unit zero) (spoken n) total (s + (n - n % 10)) (n % 10) := by
  induction n using Nat.strongRecOn generalizing s seen unit zero with
  | ind n ih =>
    by_cases hdigit : n < 10
    · refine ⟨unit, zero || n = 0, ?_, ?_⟩
      · rw [spoken_digit hdigit, run_cons (step_digit hdigit), Nat.mod_eq_of_lt hdigit, Nat.sub_self, Nat.add_zero]
        rfl
      · rw [Nat.mod_eq_of_lt hdigit]
        rcases hsettled hdigit with h | h | h | h
        · exact .inl h
        · exact .inr (.inl h)
        · exact .inr (.inr (.inl h))
        · exact .inr (.inr (.inr (by rw [h, Bool.true_or])))
    · have hten := Nat.le_of_not_lt hdigit
      obtain ⟨hlow, hhigh⟩ := leadingUnit_bounds hten
      have hcount : n / leadingUnit n < 10 := by
        unfold leadingUnit
        split_ifs <;> omega
      have hpos : 1 ≤ n / leadingUnit n := (Nat.one_le_div_iff (by omega)).mpr hhigh
      have hword : cnDigit (unitWord n) = none ∧ cnSmallUnit (unitWord n) = some (leadingUnit n) := by
        unfold unitWord leadingUnit
        split_ifs <;> first | omega | exact ⟨rfl, rfl⟩
      have hunit : leadingUnit n = 10 ∨ leadingUnit n = 100 ∨ leadingUnit n = 1000 := by
        unfold leadingUnit
        split_ifs <;> omega
      have hrest : n % leadingUnit n < n := (Nat.mod_lt n (by omega)).trans_le hhigh
      have hsplit : n / leadingUnit n * leadingUnit n + n % leadingUnit n = n := Nat.div_add_mod' n _
      have hmod : n % leadingUnit n % 10 = n % 10 := by
        rcases hunit with h | h | h <;> rw [h] <;> omega
      have hsum : s + n / leadingUnit n * leadingUnit n ≤ 2 ^ 53 := by omega
      have hlead : [digitWord (n / leadingUnit n)].foldlM cnStep (readingState total s 0 seen unit zero) =
          some (readingState total s (n / leadingUnit n) true unit (zero || n / leadingUnit n = 0)) := by
        rw [run_cons (step_digit hcount)]
        rfl
      rw [spoken_unit hten, spoken_digit hcount]
      refine reads_append hlead (reads_cons (step_small hword.1 hword.2 hpos hsum) (reads_rest ?_ ?_ ?_))
      · intro hzero
        refine ⟨rfl, ?_, ?_⟩ <;> omega
      · intro hplace hsmall
        -- Only after `十` does a digit follow at once.
        refine .inr (.inr (.inl ?_))
        omega
      · intro zero' hsettled'
        have hread : Reads (readingState total (s + n / leadingUnit n * leadingUnit n) 0 true (leadingUnit n) zero')
            (spoken (n % leadingUnit n)) total _ _ := ih _ hrest (by omega) (by omega) hsettled'
        rw [hmod] at hread
        have hsum' : s + n / leadingUnit n * leadingUnit n + (n % leadingUnit n - n % 10) = s + (n - n % 10) := by omega
        rwa [hsum'] at hread

theorem settled_one (d : Nat) (zero : Bool) : Settled d 1 zero := .inr (.inl rfl)

/-- The total after a number below 1 0000 0000. -/
def totalAfter (total : Binary64) (n : Nat) : Binary64 :=
  if n < 10000 then total else total.add (natural (n / 10000 * 10000))

/-- A number below 1 0000 0000 is counted in the total, the section and the last digit. -/
theorem reads_myriads {n : Nat} (hn : n < 100000000) :
    Reads (readingState total 0 0 seen 1 zero) (spoken n) (totalAfter total n) (n % 10000 - n % 10) (n % 10) := by
  by_cases hsmall : n < 10000
  · have hread : Reads (readingState total 0 0 seen 1 zero) (spoken n) total _ _ :=
      reads_section hsmall (by omega) fun _ => settled_one _ _
    rw [Nat.zero_add] at hread
    rwa [totalAfter, if_pos hsmall, Nat.mod_eq_of_lt hsmall]
  · have hunit : leadingUnit n = 10000 := by
      rw [leadingUnit, if_neg (by omega), if_pos (by omega)]
    have hword : unitWord n = '万' := by
      rw [unitWord, if_neg (by omega), if_pos (by omega)]
    have hread : Reads (readingState total 0 0 seen 1 zero) (spoken (n / 10000)) total _ _ :=
      reads_section (by omega) (by omega) fun _ => settled_one _ _
    obtain ⟨unit', zero', hlead, -⟩ := hread
    have hcount : (0 + (n / 10000 - n / 10000 % 10) + n / 10000 % 10) * 10000 = n / 10000 * 10000 := by omega
    have hstep := @step_big total (0 + (n / 10000 - n / 10000 % 10)) (n / 10000 % 10) unit' true zero' 10000 '万' rfl rfl
      rfl (by omega) (by decide) (by omega)
    rw [hcount] at hstep
    rw [spoken_unit (by omega), hunit, hword, totalAfter, if_neg hsmall]
    refine reads_append hlead (reads_cons hstep (reads_rest ?_ (fun _ _ => settled_one _ _) ?_))
    · intro hzero
      refine ⟨rfl, ?_, ?_⟩ <;> omega
    · intro zero'' _
      have hread : Reads (readingState (total.add (natural (n / 10000 * 10000))) 0 0 true 1 zero'') (spoken (n % 10000))
          (total.add (natural (n / 10000 * 10000))) _ _ :=
        reads_section (by omega) (by omega) fun _ => settled_one _ _
      rwa [Nat.zero_add, Nat.mod_mod_of_dvd n (by decide : 10 ∣ 10000)] at hread

/-- A number from 1 0000 0000 on: what `亿` counts is only what follows the last unit before it. -/
theorem reads_leading {n : Nat} (hn : 100000000 ≤ n) {state : CnState} {total' : Binary64} {s' d' : Nat}
    (hlead : Reads state (spoken (n / 100000000)) total' s' d') (hcount : s' + d' < 10000) :
    Reads state (spoken n) (totalAfter (total'.add (natural ((s' + d') * 100000000))) (n % 100000000))
      (n % 10000 - n % 10) (n % 10) := by
  have hunit : leadingUnit n = 100000000 := by rw [leadingUnit, if_pos hn]
  have hword : unitWord n = '亿' := by rw [unitWord, if_pos hn]
  obtain ⟨unit', zero', hrun, -⟩ := hlead
  have hstep := @step_big total' s' d' unit' true zero' 100000000 '亿' rfl rfl rfl (by omega) (by decide) (by omega)
  have hmod : n % 100000000 % 10000 = n % 10000 := Nat.mod_mod_of_dvd n (by decide)
  have hmod' : n % 100000000 % 10 = n % 10 := Nat.mod_mod_of_dvd n (by decide)
  rw [spoken_unit (by omega), hunit, hword]
  refine reads_append hrun (reads_cons hstep (reads_rest ?_ (fun _ _ => settled_one _ _) ?_))
  · intro hzero
    rw [hzero]
    refine ⟨rfl, ?_, ?_⟩ <;> omega
  · intro zero'' _
    have hread : Reads (readingState (total'.add (natural ((s' + d') * 100000000))) 0 0 true 1 zero'')
        (spoken (n % 100000000)) _ _ _ := reads_myriads (Nat.mod_lt _ (by decide))
    rwa [hmod, hmod'] at hread

theorem totalAfter_natural {t n : Nat} (h : t + n ≤ 2 ^ 53) :
    totalAfter (natural t) n = natural (t + n / 10000 * 10000) := by
  rw [totalAfter]
  split
  case isTrue hsmall => rw [Nat.div_eq_of_lt hsmall, Nat.zero_mul, Nat.add_zero]
  case isFalse => rw [add_natural (by omega)]

/-- A last digit that is settled counts as one. -/
theorem value_reading (hsettled : Settled d unit zero) (hd : d ≤ 2 ^ 53) :
    (readingState total s d seen unit zero).value = (total.add (natural s)).add (natural d) := by
  have hone : (natural d).mul (ofNat 1) = natural d := by
    rw [ofNat_natural (by decide), mul_natural (by omega), Nat.mul_one]
  rw [CnState.value, readingState]
  dsimp only
  rcases hsettled with rfl | rfl | rfl | rfl
  · rw [isTrue_natural]
    rfl
  · rw [if_neg (by simp)]
  · split
    · exact congrArg _ hone
    · rfl
  · rw [if_neg (by simp)]

end Steps

section Value
open Binary64

theorem initial_eq : CnState.initial = readingState (natural 0) 0 0 false 1 false := rfl

/-- `十` alone is one ten. -/
theorem step_ten : cnStep .initial '十' = some (readingState (natural 0) 10 0 true 10 false) := by
  have hcount : (natural 0).isTrue = false := by rw [isTrue_natural]; rfl
  have hten : (ofNat 1).mul (ofNat 10) = natural 10 := by
    rw [ofNat_natural (by decide), ofNat_natural (by decide), mul_natural (by decide)]
  have hsum : (natural 0).add (natural 10) = natural 10 := by rw [add_natural (by decide)]
  rw [cnStep]
  simp [cnDigit, cnSmallUnit, CnState.initial, readingState, hcount, hten, hsum]

/-- A leading `一` may be left out before `十`. -/
theorem run_numeralOf (n : Nat) : (numeralOf n).foldlM cnStep .initial = (spoken n).foldlM cnStep .initial := by
  rw [numeralOf]
  split
  case h_1 rest heq =>
    have hone : cnStep .initial '一' = some (readingState (natural 0) 0 1 true 1 false) :=
      @step_digit (natural 0) 0 0 1 false false 1 (by decide)
    have hten := @step_small (natural 0) 0 1 1 true false 10 '十' rfl rfl (by decide) (by decide)
    rw [Nat.one_mul, Nat.zero_add] at hten
    rw [heq, run_cons hone, run_cons hten, run_cons step_ten]
  case h_2 => rfl

theorem numeralOf_ne_nil (n : Nat) : numeralOf n ≠ [] := by
  rw [numeralOf]
  split
  · exact List.cons_ne_nil _ _
  · by_cases h : n < 10
    · rw [spoken_digit h]
      exact List.cons_ne_nil _ _
    · rw [spoken_unit (by omega)]
      exact List.append_ne_nil_of_right_ne_nil _ (List.cons_ne_nil _ _)

/-- The parser returns the value of the state that a numeral is read to. -/
theorem parse_of_reads {n s d : Nat} {total : Binary64} (h : Reads .initial (spoken n) total s d) (hd : d ≤ 2 ^ 53) :
    parseCnNumber (numeralOf n) = some ((total.add (natural s)).add (natural d)) := by
  obtain ⟨unit, zero, hrun, hsettled⟩ := h
  rw [parseCnNumber, if_neg (by simpa using numeralOf_ne_nil n), run_numeralOf, hrun, Option.bind_some, readingState,
    if_pos rfl]
  exact congrArg some (value_reading hsettled hd)

/-- What the parser makes of a numeral with at most one `万` before its `亿`. -/
def misread (n : Nat) : Nat :=
  n / 1000000000000 * 10000 + n / 100000000 % 10000 * 100000000 + n % 100000000

theorem parse_of_lt {n : Nat} (h : n < 10000000000000000) :
    parseCnNumber (numeralOf n) = some (natural (misread n)) := by
  by_cases hsmall : n < 100000000
  · have hread := parse_of_reads (initial_eq ▸ reads_myriads hsmall) (by omega)
    rw [totalAfter_natural (by omega), add_natural (by omega), add_natural (by omega)] at hread
    rw [hread, misread]
    congr 2
    omega
  · have hcount : n / 100000000 < 100000000 := by omega
    have hlead : Reads .initial (spoken (n / 100000000)) _ _ _ := initial_eq ▸ reads_myriads hcount
    have hread := parse_of_reads (reads_leading (by omega) hlead (by omega)) (by omega)
    rw [totalAfter_natural (by omega), add_natural (by omega), totalAfter_natural (by omega), add_natural (by omega),
      add_natural (by omega)] at hread
    rw [hread, misread]
    congr 2
    omega

/-- No chunk between two units adds more to the total. -/
def chunkBound : Nat := 2000000000000

theorem atMost_totalAfter {b n : Nat} {total : Binary64} (h : total.AtMost b) (hn : n < 100000000) :
    (totalAfter total n).AtMost (2 * (b + 100000000)) := by
  rw [totalAfter]
  split
  case isTrue => exact h.mono (by omega)
  case isFalse => exact h.add (atMost_natural (by omega))

/-- Each `亿` at most quadruples the total, while it stands for a hundred million times what is before it. -/
theorem reads_bounded (n : Nat) : ∃ total bound, Reads .initial (spoken n) total (n % 10000 - n % 10) (n % 10) ∧
    total.AtMost bound ∧ (n < 100000000 → bound + chunkBound ≤ 2 * chunkBound) ∧
    (n < 10000000000000000 → bound + chunkBound ≤ 8 * chunkBound) ∧
    (10000000000000000 ≤ n → 4 * (bound + chunkBound) < n) := by
  unfold chunkBound
  induction n using Nat.strongRecOn with
  | ind n ih =>
    by_cases hsmall : n < 100000000
    · have htotal : (totalAfter (natural 0) n).AtMost (2 * (0 + 100000000)) :=
        atMost_totalAfter (atMost_natural (Nat.le_refl 0)) hsmall
      have hread : Reads .initial (spoken n) (totalAfter (natural 0) n) (n % 10000 - n % 10) (n % 10) :=
        initial_eq ▸ reads_myriads hsmall
      exact ⟨totalAfter (natural 0) n, 200000000, hread, htotal, by omega, by omega, by omega⟩
    · obtain ⟨total, bound, hread, hbound, hmyriads, hmiddle, hlarge⟩ := ih (n / 100000000) (by omega)
      have hcount : n / 100000000 % 10000 - n / 100000000 % 10 + n / 100000000 % 10 < 10000 := by omega
      have htotal := atMost_totalAfter (hbound.add (atMost_natural
        (show (n / 100000000 % 10000 - n / 100000000 % 10 + n / 100000000 % 10) * 100000000 ≤ 1000000000000 by omega)))
        (Nat.mod_lt n (show 0 < 100000000 by decide))
      refine ⟨_, _, reads_leading (by omega) hread hcount, htotal, by omega, ?_, ?_⟩
      · intro hn
        have hb := hmyriads (by omega)
        omega
      · intro hn
        by_cases hsecond : n / 100000000 < 10000000000000000
        · have hb := hmiddle hsecond
          omega
        · have hb := hlarge (by omega)
          have hcounted : n / 100000000 * 100000000 ≤ n := Nat.div_mul_le_self _ _
          calc 4 * (2 * (2 * (bound + 1000000000000) + 100000000) + 2000000000000)
              = 16 * bound + 24000800000000 := by ring
            _ ≤ 4 * (bound + 2000000000000) * 4 := by omega
            _ < n / 100000000 * 4 := Nat.mul_lt_mul_of_pos_right hb (by decide)
            _ ≤ n / 100000000 * 100000000 := Nat.mul_le_mul_left _ (by decide)
            _ ≤ n := Nat.div_mul_le_self _ _

/-- A numeral is read as the number it stands for exactly if the number has no `万` before its `亿`. -/
theorem parseCnNumber_numeralOf (n : Nat) :
    parseCnNumber (numeralOf n) = some (natural n) ↔ n < 1000000000000 := by
  by_cases hsmall : n < 10000000000000000
  · rw [parse_of_lt hsmall, Option.some_inj, natural_inj, misread]
    omega
  · obtain ⟨total, bound, hread, hbound, -, -, hlarge⟩ := reads_bounded n
    refine iff_of_false ?_ (by omega)
    intro h
    rw [parse_of_reads hread (by omega), Option.some_inj] at h
    have hvalue := (hbound.add (atMost_natural (show n % 10000 - n % 10 ≤ 10000 by omega))).add
      (atMost_natural (show n % 10 ≤ 10 by omega))
    rw [h] at hvalue
    have hle := le_of_atMost hvalue
    have hb := hlarge (by omega)
    unfold chunkBound at hb
    omega

theorem numeralOf_compound : numeralOf 1500000000000 = "一万五千亿".toList := by
  have hlead : spoken 15000 = "一万五千".toList := by
    rw [spoken_unit (by decide), spoken_digit (by decide), spokenRest, if_neg (by decide), if_neg (by decide),
      spoken_unit (by decide), spoken_digit (by decide)]
    decide
  rw [numeralOf, spoken_unit (by decide), show 1500000000000 / leadingUnit 1500000000000 = 15000 by decide, hlead]
  decide

/-- 一万五千亿 is read as 5 0001 0000. -/
theorem compound_unit_misread : numeralOf 1500000000000 = "一万五千亿".toList ∧
    parseCnNumber "一万五千亿".toList = some (natural 500000010000) ∧
    ¬ ∀ n, parseCnNumber (numeralOf n) = some (natural n) := by
  have hread : parseCnNumber "一万五千亿".toList = some (natural 500000010000) := by
    rw [← numeralOf_compound, parse_of_lt (by decide)]
    rfl
  refine ⟨numeralOf_compound, hread, ?_⟩
  intro hall
  have hright := hall 1500000000000
  rw [numeralOf_compound, hread, Option.some_inj, natural_inj] at hright
  exact absurd hright (by decide)

end Value
end StockContent.Numeric
