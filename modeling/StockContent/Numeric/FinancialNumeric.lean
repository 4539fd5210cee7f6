import Mathlib.Data.List.Sort
import StockContent.Numeric.ChineseNumerals
import StockContent.Text.Matches
import StockContent.Text.Strip

/-! Numbers in spoken text: seven families of patterns are searched one after another, and no number takes what
another one has taken. -/
namespace StockContent.Numeric
open StockContent.Text

/-- What the parser knows of characters. No ideograph is a decimal digit or a blank. -/
structure NumberTables extends CharTables where
  digitOf : Char → Nat
  ideographs : ∀ c : Char, '一' ≤ c → c ≤ '鿿' → isDecimal c = false ∧ isSpace c = false

/-- ASCII digits, and the blank alone. -/
def plainNumberTables : NumberTables where
  isDecimal := Char.isDigit
  isSpace c := c = ' '
  upper c := [c.toUpper]
  letters := letter_ne_blank
  digitOf c := c.toNat - 48
  ideographs := by
    intro c hfirst _
    have hcode : 0x4E00 ≤ c.val.toNat := UInt32.le_iff_toNat_le.mp (Char.le_def.mp hfirst)
    constructor
    · rw [Char.isDigit, Bool.and_eq_false_iff]
      right
      refine decide_eq_false ?_
      intro hle
      have hsmall : c.val.toNat ≤ 57 := UInt32.le_iff_toNat_le.mp hle
      omega
    · refine decide_eq_false ?_
      rintro rfl
      exact absurd hcode (by decide)

section Data

inductive Comparator where
  | gt | gte | lt | lte | eq | approx
  deriving DecidableEq, Repr

inductive NumericUnit where
  | percent | multiple | cny | cnyYi | cnyWan | point
  deriving DecidableEq, Repr

inductive Metric where
  | roe | pe | pb | ps | eps | profit | revenue | grossMargin | netMargin | gdp
  deriving DecidableEq, Repr

structure FinancialNumericValue where
  rawExpression : List Char := []
  value : Option Binary64 := none
  minValue : Option Binary64 := none
  maxValue : Option Binary64 := none
  comparator : Option Comparator := none
  approximate : Bool := false
  unit : Option NumericUnit := none
  metric : Option Metric := none
  deriving DecidableEq, Repr

def unitBySuffix (suffix : List Char) : Option NumericUnit :=
  [("%", NumericUnit.percent), ("％", .percent), ("倍", .multiple), ("亿", .cnyYi), ("万", .cnyWan), ("点", .point),
    ("元", .cny)].findSome? fun entry => if suffix = entry.1.toList then some entry.2 else none

def comparatorPrefixes : List (List Char × Comparator) :=
  [("不超过", Comparator.lte), ("不低于", .gte), ("不到", .lt), ("不足", .lt), ("低于", .lt), ("少于", .lt),
    ("超过", .gt), ("高于", .gt), ("多于", .gt), ("大于", .gt), ("至少", .gte), ("最少", .gte), ("至多", .lte),
    ("最多", .lte), ("大约", .approx), ("约", .approx)].map fun entry => (entry.1.toList, entry.2)

def metricKeywords : List (List String × Metric) :=
  [(["净资产收益率", "ROE"], .roe), (["市盈率", "PE"], .pe), (["市净率", "PB"], .pb), (["市销率", "PS"], .ps),
    (["每股收益", "EPS"], .eps), (["净利润", "利润", "盈利", "净利"], .profit),
    (["营业收入", "营收", "收入", "销售额"], .revenue), (["毛利率"], .grossMargin), (["净利率"], .netMargin),
    (["GDP"], .gdp)]

end Data

section Patterns

def cnNum : String := "零一二两三四五六七八九十百千万"
def cnNumNoBig : String := "零一二两三四五六七八九十百千"
def rangeUnits : String := "倍亿万点元成"

def rePercentCn : List Regex := [.word "百分之", .some (.oneOf cnNum)]

def reRangeLaiJi : List Regex :=
  [.seq (.rep (.oneOf "零一二两三四五六七八九") 0 (some 2)) (.char '十'), .oneOf "来几", .option (.char '个'),
    .option (.oneOf rangeUnits)]

/-- The first part is lazy in the source; no `多` is in its class, so that it ends in the same place. -/
def reRangeDuo : List Regex :=
  [.some (.oneOf "零一二两三四五六七八九十百"), .char '多', .option (.char '个'), .option (.oneOf rangeUnits)]

def reCnYi : List Regex := [.some (.oneOf cnNum), .char '亿']

def reCnWan : List Regex := [.some (.oneOf cnNumNoBig), .char '万', .notBefore (· = '亿')]

def reCnUnit : List Regex := [.some (.oneOf cnNumNoBig), .oneOf "成倍点元"]

def reArabic (tables : NumberTables) : List Regex :=
  [.seq (.some (.one tables.isDecimal)) (.option (.seq (.char '.') (.some (.one tables.isDecimal)))),
    .many (.one tables.isSpace), .option (.oneOf "%％倍亿万点元")]

end Patterns

section Parser
variable (tables : NumberTables)

/-- `text[start:stop]`. -/
def slice (text : List Char) (start stop : Nat) : List Char := (text.take stop).drop start

/-- The first word of the list that stands within four characters before the number. -/
def prefixComparator (text : List Char) (start : Nat) : Option (List Char × Comparator) :=
  comparatorPrefixes.find? fun entry => entry.1 <:+: slice text (start - 4) start

def inferMetric (text : List Char) (start stop : Nat) : Option Metric :=
  let window := slice text (start - 8) (stop + 4)
  let upper := window.flatMap tables.upper
  (metricKeywords.find? fun entry =>
    entry.1.any fun keyword => keyword.toList <:+: window || keyword.toList <:+: upper).map (·.2)

/-- A number that the parser has taken, with the span it occupies. -/
structure Registered where
  start : Nat
  stop : Nat
  value : FinancialNumericValue
  deriving DecidableEq, Repr

def spansFree (occupied : List Registered) (start stop : Nat) : Bool :=
  occupied.all fun taken => stop ≤ taken.start || taken.stop ≤ start

/-- Where the expression starts, with a comparison word that stands right before the number. -/
def rawStart (text : List Char) (start : Nat) : Nat :=
  match prefixComparator text start with
  | some (word, _) => if slice text (start - word.length) start = word then start - word.length else start
  | none => start

def register (text : List Char) (m : Match) (value : FinancialNumericValue) : Registered where
  start := m.start
  stop := m.stop
  value :=
    let comparator := (prefixComparator text m.start).map (·.2)
    { value with
      comparator := comparator <|> value.comparator
      approximate := value.approximate || comparator = some .approx
      metric := inferMetric tables text m.start m.stop
      rawExpression := slice text (rawStart text m.start) m.stop }

def scanStep (text : List Char) (builder : Match → FinancialNumericValue) (found : List Registered) (m : Match) :
    List Registered :=
  if spansFree found m.start m.stop then found ++ [register tables text m (builder m)] else found

def scan (text : List Char) (pattern : List Regex) (builder : Match → FinancialNumericValue) (found : List Registered) :
    List Registered :=
  (finditer pattern text).foldl (scanStep tables text builder) found

def cnPoint (number : Binary64) (suffix : List Char) : FinancialNumericValue :=
  if suffix = "成".toList then { value := some (number.mul (.ofNat 10)), unit := some .percent }
  else { value := some number, unit := unitBySuffix suffix }

def rangeValue (base step : Binary64) (suffix : List Char) : FinancialNumericValue :=
  let least := base
  let greatest := (base.add step).sub (.ofNat 1)
  if suffix = "成".toList then
    { minValue := some (least.mul (.ofNat 10)), maxValue := some (greatest.mul (.ofNat 10)), approximate := true,
      unit := some .percent }
  else { minValue := some least, maxValue := some greatest, approximate := true, unit := unitBySuffix suffix }

/-- `_parse_cn_number(text) or 0.0`. -/
def cnNumberOrZero (text : List Char) : Binary64 := (parseCnNumber text).getD (.natural 0)

/-- `float(text)` of digits with at most one point. -/
def floatOf (text : List Char) : Binary64 :=
  let fraction := (text.dropWhile (· ≠ '.')).drop 1
  let digits := text.takeWhile (· ≠ '.') ++ fraction
  .ofDecimal (digits.foldl (fun n c => 10 * n + tables.digitOf c) 0) fraction.length

def percentCn (m : Match) : FinancialNumericValue := { value := parseCnNumber (m.part 1), unit := some .percent }

def rangeLaiJi (m : Match) : FinancialNumericValue :=
  rangeValue (cnNumberOrZero (m.part 0)) (.ofNat 10) (m.part 3)

def rangeDuo (m : Match) : FinancialNumericValue :=
  rangeValue (cnNumberOrZero (m.part 0)) (if ['十'] <:+ m.part 0 then .ofNat 10 else .ofNat 100) (m.part 3)

def cnYi (m : Match) : FinancialNumericValue := { value := parseCnNumber (m.part 0), unit := some .cnyYi }

def cnWan (m : Match) : FinancialNumericValue := { value := parseCnNumber (m.part 0), unit := some .cnyWan }

def cnUnit (m : Match) : FinancialNumericValue := cnPoint (cnNumberOrZero (m.part 0)) (m.part 1)

def arabic (m : Match) : FinancialNumericValue :=
  { value := some (floatOf tables (m.part 0)), unit := unitBySuffix (m.part 2) }

/-- The patterns in the order in which they are searched, with what they make of a match. -/
def families : List (List Regex × (Match → FinancialNumericValue)) :=
  [(rePercentCn, percentCn), (reRangeLaiJi, rangeLaiJi), (reRangeDuo, rangeDuo), (reCnYi, cnYi), (reCnWan, cnWan),
    (reCnUnit, cnUnit), (reArabic tables, arabic tables)]

def registered (text : List Char) : List Registered :=
  (families tables).foldl (fun found family => scan tables text family.1 family.2 found) []

/-- The numbers in the order in which they stand in the text. -/
def orderedNumbers (text : List Char) : List Registered :=
  (registered tables text).insertionSort (·.start ≤ ·.start)

def parseFinancialNumerics (text : List Char) : List FinancialNumericValue :=
  (orderedNumbers tables text).map (·.value)

end Parser

section Consumed

theorem families_consuming (tables : NumberTables) : ∀ family ∈ families tables, Consuming family.1 := by
  have hsome (r : Regex) : ∀ taken, (Regex.some r).ReadsText taken → taken ≠ [] := fun _ h => h.ne_nil
  have hone (test : Char → Bool) : ∀ taken, (Regex.one test).ReadsText taken → taken ≠ [] := by
    intro taken h
    obtain ⟨c, rfl, -⟩ := Regex.readsText_one h
    exact List.cons_ne_nil _ _
  have hnumber : ∀ taken, (Regex.seq (.some (.one tables.isDecimal)) (.option (.seq (.char '.')
      (.some (.one tables.isDecimal))))).ReadsText taken → taken ≠ [] := by
    intro taken h
    obtain ⟨first, second, rfl, hfirst, -⟩ := Regex.readsText_seq h
    exact fun hnil => hfirst.ne_nil (List.append_eq_nil_iff.mp hnil).1
  intro family hfamily
  simp only [families, List.mem_cons, List.not_mem_nil, or_false] at hfamily
  rcases hfamily with rfl | rfl | rfl | rfl | rfl | rfl | rfl
  · exact consuming_of_part (List.mem_cons_of_mem _ List.mem_cons_self) (hsome _)
  · exact consuming_of_part (List.mem_cons_of_mem _ List.mem_cons_self) (hone _)
  · exact consuming_of_part List.mem_cons_self (hsome _)
  · exact consuming_of_part List.mem_cons_self (hsome _)
  · exact consuming_of_part List.mem_cons_self (hsome _)
  · exact consuming_of_part List.mem_cons_self (hsome _)
  · exact consuming_of_part List.mem_cons_self hnumber

end Consumed

section Spans
variable {tables : NumberTables} {text : List Char} {builder : Match → FinancialNumericValue} {found : List Registered}

/-- Two spans share no place. -/
def Apart (a b : Registered) : Prop := a.stop ≤ b.start ∨ b.stop ≤ a.start

/-- A number is a match of one of the patterns. -/
def IsMatch (tables : NumberTables) (text : List Char) (r : Registered) : Prop :=
  ∃ family ∈ families tables, ∃ m ∈ finditer family.1 text, r = register tables text m (family.2 m)

theorem spansFree_iff {start stop : Nat} :
    spansFree found start stop = true ↔ ∀ taken ∈ found, stop ≤ taken.start ∨ taken.stop ≤ start := by
  simp [spansFree]

theorem subset_scanStep (m : Match) : found ⊆ scanStep tables text builder found m := by
  rw [scanStep]
  split
  · exact List.subset_append_left _ _
  · exact List.Subset.refl _

theorem subset_scanFold (ms : List Match) : found ⊆ ms.foldl (scanStep tables text builder) found := by
  induction ms generalizing found with
  | nil => exact List.Subset.refl _
  | cons m ms ih => exact List.Subset.trans (subset_scanStep m) ih

theorem apart_scanStep (hfound : found.Pairwise Apart) (m : Match) :
    (scanStep tables text builder found m).Pairwise Apart := by
  rw [scanStep]
  split
  case isFalse => exact hfound
  case isTrue hfree =>
    refine List.pairwise_append.mpr ⟨hfound, List.pairwise_singleton _ _, ?_⟩
    intro taken htaken new hnew
    rw [List.mem_singleton.mp hnew]
    exact (spansFree_iff.mp hfree taken htaken).symm

theorem apart_scanFold (hfound : found.Pairwise Apart) (ms : List Match) :
    (ms.foldl (scanStep tables text builder) found).Pairwise Apart := by
  induction ms generalizing found with
  | nil => exact hfound
  | cons m ms ih => exact ih (apart_scanStep hfound m)

theorem mem_scanFold {ms : List Match} {r : Registered} (h : r ∈ ms.foldl (scanStep tables text builder) found) :
    r ∈ found ∨ ∃ m ∈ ms, r = register tables text m (builder m) := by
  induction ms generalizing found with
  | nil => exact .inl h
  | cons m ms ih =>
    rcases ih h with hstep | ⟨m', hm', hr⟩
    · rw [scanStep] at hstep
      split at hstep
      · rcases List.mem_append.mp hstep with hold | hnew
        · exact .inl hold
        · exact .inr ⟨m, List.mem_cons_self, List.mem_singleton.mp hnew⟩
      · exact .inl hstep
    · exact .inr ⟨m', List.mem_cons_of_mem _ hm', hr⟩

/-- A match is taken unless a number that has been taken overlaps it. -/
theorem taken_or_overlapped {ms : List Match} {m : Match} (h : m ∈ ms) :
    register tables text m (builder m) ∈ ms.foldl (scanStep tables text builder) found ∨
      ∃ r ∈ ms.foldl (scanStep tables text builder) found, r.start < m.stop ∧ m.start < r.stop := by
  induction ms generalizing found with
  | nil => cases h
  | cons m' ms ih =>
    rcases List.mem_cons.mp h with rfl | hm
    · by_cases hfree : spansFree found m.start m.stop = true
      · refine .inl (subset_scanFold ms ?_)
        rw [scanStep, if_pos hfree]
        exact List.mem_append_right _ (List.mem_singleton_self _)
      · right
        rw [spansFree_iff] at hfree
        push Not at hfree
        obtain ⟨r, hr, hoverlap⟩ := hfree
        exact ⟨r, subset_scanFold ms (subset_scanStep m hr), hoverlap⟩
    · exact ih hm

/-- One family after the other. -/
theorem mem_scanAll {rest : List (List Regex × (Match → FinancialNumericValue))} {r : Registered}
    (h : r ∈ rest.foldl (fun found family => scan tables text family.1 family.2 found) found) :
    r ∈ found ∨ ∃ family ∈ rest, ∃ m ∈ finditer family.1 text, r = register tables text m (family.2 m) := by
  induction rest generalizing found with
  | nil => exact .inl h
  | cons family rest ih =>
    rcases ih h with hscan | ⟨other, hother, hmatch⟩
    · rcases mem_scanFold hscan with hold | hmatch
      · exact .inl hold
      · exact .inr ⟨family, List.mem_cons_self, hmatch⟩
    · exact .inr ⟨other, List.mem_cons_of_mem _ hother, hmatch⟩

theorem subset_scanAll (rest : List (List Regex × (Match → FinancialNumericValue))) :
    found ⊆ rest.foldl (fun found family => scan tables text family.1 family.2 found) found := by
  induction rest generalizing found with
  | nil => exact List.Subset.refl _
  | cons family rest ih => exact List.Subset.trans (subset_scanFold _) ih

theorem apart_scanAll (hfound : found.Pairwise Apart) (rest : List (List Regex × (Match → FinancialNumericValue))) :
    (rest.foldl (fun found family => scan tables text family.1 family.2 found) found).Pairwise Apart := by
  induction rest generalizing found with
  | nil => exact hfound
  | cons family rest ih => exact ih (apart_scanFold hfound _)

theorem registered_spec (tables : NumberTables) (text : List Char) :
    (registered tables text).Pairwise Apart ∧ ∀ r ∈ registered tables text, IsMatch tables text r :=
  ⟨apart_scanAll .nil _, fun _ hr => (mem_scanAll hr).resolve_left List.not_mem_nil⟩

/-- Where a pattern matches, there is a number of this pattern or of one that is searched before. -/
theorem registered_covers {before after : List (List Regex × (Match → FinancialNumericValue))}
    {family : List Regex × (Match → FinancialNumericValue)} (hsplit : families tables = before ++ family :: after)
    {m : Match} (hm : m ∈ finditer family.1 text) (hne : m.start < m.stop) :
    ∃ r ∈ registered tables text, r.start < m.stop ∧ m.start < r.stop ∧
      ∃ other ∈ before ++ [family], ∃ m' ∈ finditer other.1 text, r = register tables text m' (other.2 m') := by
  have hstage : registered tables text = after.foldl (fun found family => scan tables text family.1 family.2 found)
      ((before ++ [family]).foldl (fun found family => scan tables text family.1 family.2 found) []) := by
    rw [registered, hsplit, ← List.foldl_append, List.append_assoc, List.singleton_append]
  have hscan : (before ++ [family]).foldl (fun found family => scan tables text family.1 family.2 found) [] =
      scan tables text family.1 family.2
        (before.foldl (fun found family => scan tables text family.1 family.2 found) []) := by
    rw [List.foldl_append, List.foldl_cons, List.foldl_nil]
  rw [hstage]
  have hmem (r : Registered) (hr : r ∈ (before ++ [family]).foldl
      (fun found family => scan tables text family.1 family.2 found) []) :=
    (mem_scanAll hr).resolve_left List.not_mem_nil
  rcases @taken_or_overlapped tables text family.2
    (before.foldl (fun found family => scan tables text family.1 family.2 found) []) _ m hm with htaken | ⟨r, hr, hover⟩
  · rw [← scan, ← hscan] at htaken
    exact ⟨_, subset_scanAll after htaken, hne, hne, hmem _ htaken⟩
  · rw [← scan, ← hscan] at hr
    exact ⟨r, subset_scanAll after hr, hover.1, hover.2, hmem r hr⟩

end Spans

end StockContent.Numeric
