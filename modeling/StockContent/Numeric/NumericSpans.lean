import Mathlib.Data.List.Pairwise
import StockContent.Numeric.ComparatorWords

/-! Where the numbers of a text lie: their spans are apart, and their raw expressions are, unless the comparison word
of one ends in the last character of another. -/
namespace StockContent.Numeric
open StockContent.Text

section Shapes

/-- What a match of a pattern in Chinese looks like: characters of a number, a character that none of them is, and
what may follow it. -/
structure Shape where
  head : List Char
  marker : List Char
  tail : List Char

def Shape.ending (s : Shape) : List Char := s.marker ++ s.tail

def Shape.chars (s : Shape) : List Char := s.head ++ s.ending

def percentShape : Shape := ⟨['百'], ['分'], '之' :: cnNum.toList⟩
def laiJiShape : Shape := ⟨"零一二两三四五六七八九十".toList, "来几".toList, '个' :: rangeUnits.toList⟩
def duoShape : Shape := ⟨"零一二两三四五六七八九十百".toList, ['多'], '个' :: rangeUnits.toList⟩
def yiShape : Shape := ⟨cnNum.toList, ['亿'], []⟩
def wanShape : Shape := ⟨cnNumNoBig.toList, ['万'], []⟩
def unitShape : Shape := ⟨cnNumNoBig.toList, "成倍点元".toList, []⟩

/-- The match stands in the text. -/
def Stands (text : List Char) (m : Match) : Prop := ∃ rest, text.drop m.start = m.text ++ rest

structure Shaped (text : List Char) (s : Shape) (m : Match) : Prop where
  stands : Stands text m
  parts : ∃ head marker tail, m.text = head ++ marker :: tail ∧ head ≠ [] ∧ (∀ c ∈ head, c ∈ s.head) ∧
    marker ∈ s.marker ∧ ∀ c ∈ tail, c ∈ s.tail

variable {text : List Char} {m : Match}

theorem Stands.getElem? (h : Stands text m) {k : Nat} (hk : k < m.text.length) : text[m.start + k]? = m.text[k]? := by
  obtain ⟨rest, hrest⟩ := h
  rw [← List.getElem?_drop, hrest, List.getElem?_append_left hk]

/-- A character in the span of a match is one of its text. -/
theorem Stands.mem (h : Stands text m) {i : Nat} {c : Char} (hc : text[i]? = some c) (hle : m.start ≤ i) (hlt : i < m.stop) :
    m.text[i - m.start]? = some c := by
  rw [Match.stop] at hlt
  rw [← h.getElem? (by omega), Nat.add_sub_cancel' hle, hc]

theorem Shaped.mem_chars {s : Shape} (h : Shaped text s m) {c : Char} (hc : c ∈ m.text) : c ∈ s.chars := by
  obtain ⟨head, marker, tail, htext, -, hhead, hmarker, htail⟩ := h.parts
  rw [htext, List.mem_append, List.mem_cons] at hc
  rw [Shape.chars, Shape.ending, List.mem_append, List.mem_append]
  rcases hc with hc | rfl | hc
  · exact .inl (hhead c hc)
  · exact .inr (.inl hmarker)
  · exact .inr (.inr (htail c hc))

/-- The last character of a match is no character of a number. -/
theorem Shaped.last {s : Shape} (h : Shaped text s m) : ∃ c ∈ s.ending, m.start < m.stop ∧ text[m.stop - 1]? = some c := by
  obtain ⟨head, marker, tail, htext, hne, -, hmarker, htail⟩ := h.parts
  have hlength : m.text.length = head.length + (tail.length + 1) := by
    rw [htext, List.length_append, List.length_cons]
  have hlast : m.text[m.text.length - 1]? = (marker :: tail).getLast? := by
    rw [← List.getLast?_eq_getElem?, htext, List.getLast?_append_of_ne_nil _ (List.cons_ne_nil _ _)]
  have hc := List.getLast?_eq_some_getLast (List.cons_ne_nil marker tail)
  refine ⟨(marker :: tail).getLast (List.cons_ne_nil _ _), ?_, by rw [Match.stop]; omega, ?_⟩
  · rw [Shape.ending, List.mem_append]
    rcases List.mem_cons.mp (List.getLast_mem (List.cons_ne_nil marker tail)) with heq | hmem
    · exact .inl (by rw [heq]; exact hmarker)
    · exact .inr (htail _ hmem)
  · rw [← hc, ← hlast, ← h.stands.getElem? (by omega), Match.stop]
    congr 1
    omega

theorem Shaped.first {s : Shape} (h : Shaped text s m) : ∃ c ∈ s.head, text[m.start]? = some c := by
  obtain ⟨head, marker, tail, htext, hne, hhead, -, -⟩ := h.parts
  obtain ⟨c, head, rfl⟩ := List.exists_cons_of_ne_nil hne
  obtain ⟨rest, hrest⟩ := h.stands
  refine ⟨c, hhead c List.mem_cons_self, ?_⟩
  rw [← Nat.add_zero m.start, ← List.getElem?_drop, hrest, htext]
  rfl

/-- No match of the first shape starts inside one of the second. -/
def Shape.clear (z x : Shape) : Bool := x.chars.all (!z.marker.contains ·) && x.ending.all (!z.head.contains ·)

theorem not_start_inside {z x : Match} {zs xs : Shape} (hclear : zs.clear xs = true) (hz : Shaped text zs z)
    (hx : Shaped text xs x) (hle : x.start ≤ z.start) (hlt : z.start < x.stop) : False := by
  rw [Shape.clear, Bool.and_eq_true, List.all_eq_true, List.all_eq_true] at hclear
  obtain ⟨head, marker, tail, htext, -, hhead, hmarker, -⟩ := hz.parts
  have hlength : z.text.length = head.length + (tail.length + 1) := by
    rw [htext, List.length_append, List.length_cons]
  by_cases hinside : z.start + head.length < x.stop
  · have hchar : text[z.start + head.length]? = some marker := by
      rw [hz.stands.getElem? (by omega), htext, List.getElem?_append_right (Nat.le_refl _), Nat.sub_self,
        List.getElem?_cons_zero]
    have hmem := hx.mem_chars (List.mem_of_getElem? (hx.stands.mem hchar (by omega) hinside))
    have hnot := hclear.1 marker hmem
    rw [List.contains_iff_mem.mpr hmarker] at hnot
    cases hnot
  · obtain ⟨c, hc, hpos, hlast⟩ := hx.last
    have hstop : z.stop = z.start + z.text.length := rfl
    have hchar := hz.stands.mem hlast (by omega) (by omega)
    rw [htext, List.getElem?_append_left (by omega)] at hchar
    have hnot := hclear.2 c hc
    rw [List.contains_iff_mem.mpr (hhead c (List.mem_of_getElem? hchar))] at hnot
    cases hnot

end Shapes

section Patterns
variable {text : List Char} {m : Match}

def chineseShapes : List (List Regex × Shape) :=
  [(rePercentCn, percentShape), (reRangeLaiJi, laiJiShape), (reRangeDuo, duoShape), (reCnYi, yiShape), (reCnWan, wanShape),
    (reCnUnit, unitShape)]

theorem percent_mem : (rePercentCn, percentShape) ∈ chineseShapes := List.mem_cons_self
theorem laiJi_mem : (reRangeLaiJi, laiJiShape) ∈ chineseShapes := List.mem_of_mem_drop (i := 1) List.mem_cons_self
theorem duo_mem : (reRangeDuo, duoShape) ∈ chineseShapes := List.mem_of_mem_drop (i := 2) List.mem_cons_self
theorem yi_mem : (reCnYi, yiShape) ∈ chineseShapes := List.mem_of_mem_drop (i := 3) List.mem_cons_self
theorem wan_mem : (reCnWan, wanShape) ∈ chineseShapes := List.mem_of_mem_drop (i := 4) List.mem_cons_self
theorem unit_mem : (reCnUnit, unitShape) ∈ chineseShapes := List.mem_of_mem_drop (i := 5) List.mem_cons_self

theorem flatten_within {P : Char → Prop} {rs : List Regex} {parts : List (List Char)}
    (hparts : List.Forall₂ Regex.ReadsText rs parts) (h : ∀ r ∈ rs, r.Within P) : ∀ c ∈ parts.flatten, P c := by
  induction hparts with
  | nil => exact fun c hc => absurd hc List.not_mem_nil
  | @cons r taken rs parts hfirst hrest ih =>
    intro c hc
    rw [List.flatten_cons, List.mem_append] at hc
    rcases hc with hc | hc
    · exact hfirst.within (h r List.mem_cons_self) c hc
    · exact ih (fun r hr => h r (List.mem_cons_of_mem _ hr)) c hc

theorem shaped_of_parts {s : Shape} {r : Regex} {test : Char → Bool} {rest : List Regex} (hstands : Stands text m)
    (hparts : List.Forall₂ Regex.ReadsText (r :: .one test :: rest) m.parts)
    (hne : ∀ taken, r.ReadsText taken → taken ≠ []) (hhead : r.Within (· ∈ s.head))
    (hmarker : ∀ c, test c = true → c ∈ s.marker) (htail : ∀ r ∈ rest, r.Within (· ∈ s.tail)) : Shaped text s m := by
  refine ⟨hstands, ?_⟩
  obtain ⟨head, parts', hfirst, hparts', heq⟩ := List.forall₂_cons_left_iff.mp hparts
  obtain ⟨marker, parts, hsecond, hrest, rfl⟩ := List.forall₂_cons_left_iff.mp hparts'
  obtain ⟨c, rfl, hc⟩ := Regex.readsText_one hsecond
  rw [Match.text, heq]
  exact ⟨head, c, parts.flatten, rfl, hne head hfirst, hfirst.within hhead, hmarker c hc, flatten_within hrest htail⟩

theorem within_oneOf {chars : String} {P : Char → Prop} (h : ∀ c ∈ chars.toList, P c) : (Regex.oneOf chars).Within P :=
  fun c hc => h c (List.contains_iff_mem.mp hc)

theorem within_char {c : Char} {P : Char → Prop} (h : P c) : (Regex.char c).Within P := by
  intro other hother
  rw [decide_eq_true_eq] at hother
  exact hother ▸ h

theorem readsText_word {word : String} {taken : List Char} (h : (Regex.word word).ReadsText taken) :
    taken = word.toList := by
  rw [Regex.word] at h
  generalize word.toList = chars at h ⊢
  induction chars generalizing taken with
  | nil =>
    obtain ⟨p, q, hq, htext⟩ := h
    rw [List.mem_singleton.mp hq] at htext
    exact List.append_cancel_right (htext.symm.trans (List.nil_append _).symm)
  | cons c chars ih =>
    obtain ⟨first, second, rfl, hfirst, hsecond⟩ := Regex.readsText_seq h
    obtain ⟨other, rfl, hother⟩ := Regex.readsText_one hfirst
    rw [decide_eq_true_eq] at hother
    rw [hother, ih hsecond, List.singleton_append]

theorem matched (pattern : List Regex) (hconsuming : Consuming pattern) (h : m ∈ finditer pattern text) :
    Stands text m ∧ List.Forall₂ Regex.ReadsText pattern m.parts := by
  obtain ⟨hstands, hparts, -⟩ := finditer_parts hconsuming h
  exact ⟨hstands, hparts⟩

theorem option_within {r : Regex} {P : Char → Prop} (h : r.Within P) : (Regex.option r).Within P := h

theorem chinese_consuming : ∀ entry ∈ chineseShapes, Consuming entry.1 := by
  intro entry hentry
  have hfamily : entry.1 ∈ (families plainNumberTables).map (·.1) := by
    have hmem := List.mem_map_of_mem (f := (·.1)) hentry
    exact List.mem_append_left [reArabic plainNumberTables] hmem
  obtain ⟨family, hmem, heq⟩ := List.mem_map.mp hfamily
  exact heq ▸ families_consuming plainNumberTables family hmem

/-- Every match of a pattern in Chinese has the shape of the pattern. -/
theorem chinese_shaped : ∀ entry ∈ chineseShapes, ∀ m ∈ finditer entry.1 text,
    Shaped text entry.2 m := by
  intro entry hentry m hm
  obtain ⟨hstands, hparts⟩ := matched entry.1 (chinese_consuming entry hentry) hm
  have hsome (r : Regex) : ∀ taken, (Regex.some r).ReadsText taken → taken ≠ [] := fun _ h => h.ne_nil
  have hunits : ∀ r ∈ [Regex.option (.char '个'), .option (.oneOf rangeUnits)],
      r.Within (· ∈ '个' :: rangeUnits.toList) := by
    intro r hr
    simp only [List.mem_cons, List.not_mem_nil, or_false] at hr
    rcases hr with rfl | rfl
    · exact option_within (within_char List.mem_cons_self)
    · exact option_within (within_oneOf fun c hc => List.mem_cons_of_mem _ hc)
  simp only [chineseShapes, List.mem_cons, List.not_mem_nil, or_false] at hentry
  rcases hentry with rfl | rfl | rfl | rfl | rfl | rfl
  · refine ⟨hstands, ?_⟩
    obtain ⟨word, parts', hword, hparts', heq⟩ := List.forall₂_cons_left_iff.mp hparts
    obtain ⟨number, parts, hnumber, hnone, rfl⟩ := List.forall₂_cons_left_iff.mp hparts'
    cases hnone
    obtain ⟨-, hall⟩ := Regex.readsText_some_oneOf hnumber
    refine ⟨['百'], '分', '之' :: number, ?_, List.cons_ne_nil _ _, fun _ => id, List.mem_singleton_self _, ?_⟩
    · have hprefix : "百分之".toList = ['百', '分', '之'] := by decide
      rw [Match.text, heq, readsText_word hword, hprefix, List.flatten_cons, List.flatten_cons, List.flatten_nil,
        List.append_nil]
      rfl
    · intro c hc
      rcases List.mem_cons.mp hc with rfl | hc
      · exact List.mem_cons_self
      · exact List.mem_cons_of_mem _ (hall c hc)
  · refine shaped_of_parts hstands hparts ?_ ⟨within_oneOf ?_, within_char (by decide)⟩ ?_ hunits
    · intro taken htaken
      obtain ⟨first, second, rfl, -, hsecond⟩ := Regex.readsText_seq htaken
      obtain ⟨c, rfl, -⟩ := Regex.readsText_one hsecond
      simp
    · exact fun c hc => List.mem_append_left ['十'] hc
    · exact fun c hc => List.contains_iff_mem.mp hc
  · exact shaped_of_parts hstands hparts (hsome _) (within_oneOf fun _ => id) (within_char (List.mem_singleton_self _)) hunits
  · exact shaped_of_parts hstands hparts (hsome _) (within_oneOf fun _ => id) (within_char (List.mem_singleton_self _)) (by simp)
  · exact shaped_of_parts hstands hparts (hsome _) (within_oneOf fun _ => id) (within_char (List.mem_singleton_self _))
      (by simp [Regex.Within])
  · exact shaped_of_parts hstands hparts (hsome _) (within_oneOf fun _ => id)
      (fun c hc => List.contains_iff_mem.mp hc) (by simp)

/-- What a number in digits is made of. -/
def ArabicChar (tables : NumberTables) (c : Char) : Prop :=
  tables.isDecimal c = true ∨ tables.isSpace c = true ∨ c ∈ ".%％倍亿万点元".toList

theorem arabic_consuming (tables : NumberTables) : Consuming (reArabic tables) :=
  families_consuming tables (reArabic tables, arabic tables) (by simp [families])

theorem arabic_shaped {tables : NumberTables} (h : m ∈ finditer (reArabic tables) text) :
    Stands text m ∧ (∀ c ∈ m.text, ArabicChar tables c) ∧ ∃ c, text[m.start]? = some c ∧ tables.isDecimal c = true := by
  obtain ⟨hstands, hparts⟩ := matched _ (arabic_consuming tables) h
  refine ⟨hstands, ?_, ?_⟩
  · refine flatten_within hparts ?_
    intro r hr
    simp only [reArabic, List.mem_cons, List.not_mem_nil, or_false] at hr
    rcases hr with rfl | rfl | rfl
    · exact ⟨fun _ => .inl, within_char (.inr (.inr (by decide))), fun _ => .inl⟩
    · exact fun _ hc => .inr (.inl hc)
    · exact within_oneOf fun c hc => .inr (.inr (List.mem_cons_of_mem _ hc))
  · obtain ⟨number, parts, hnumber, -, heq⟩ := List.forall₂_cons_left_iff.mp hparts
    obtain ⟨whole, fraction, rfl, hwhole, -⟩ := Regex.readsText_seq hnumber
    obtain ⟨c, rest, rfl⟩ := List.exists_cons_of_ne_nil hwhole.ne_nil
    refine ⟨c, ?_, ?_⟩
    · obtain ⟨after, hafter⟩ := hstands
      rw [← Nat.add_zero m.start, ← List.getElem?_drop, hafter, Match.text, heq]
      rfl
    · have hdecimal : (Regex.some (.one tables.isDecimal)).Within (tables.isDecimal · = true) := fun _ => id
      exact hwhole.within hdecimal c List.mem_cons_self

/-- Ideographs that are no units. -/
theorem not_arabicChar {tables : NumberTables} {chars : List Char}
    (h : (chars.all fun c => '一' ≤ c && c ≤ '鿿' && !".%％倍亿万点元".toList.contains c) = true) :
    ∀ c ∈ chars, ¬ ArabicChar tables c := by
  intro c hc
  have hcheck := List.all_eq_true.mp h c hc
  simp only [Bool.and_eq_true, decide_eq_true_eq] at hcheck
  obtain ⟨⟨hfirst, hlast⟩, hunit⟩ := hcheck
  obtain ⟨hdecimal, hspace⟩ := tables.ideographs c hfirst hlast
  rintro (h | h | h)
  · rw [hdecimal] at h
    cases h
  · rw [hspace] at h
    cases h
  · rw [List.contains_iff_mem.mpr h] at hunit
    cases hunit

/-- A pattern in Chinese reads no digit. -/
theorem chinese_not_decimal (tables : NumberTables) {entry : List Regex × Shape} (hentry : entry ∈ chineseShapes) {c : Char}
    (hc : c ∈ entry.2.chars) : tables.isDecimal c = false := by
  have hall : (chineseShapes.all fun entry => entry.2.chars.all fun c => '一' ≤ c && c ≤ '鿿') = true := by decide
  have hcheck := List.all_eq_true.mp (List.all_eq_true.mp hall entry hentry) c hc
  rw [Bool.and_eq_true, decide_eq_true_eq, decide_eq_true_eq] at hcheck
  exact (tables.ideographs c hcheck.1 hcheck.2).1

end Patterns

section Barrier
variable {tables : NumberTables} {text : List Char} {m : Match}

/-- No match contains `于`. -/
theorem barrier {family : List Regex × (Match → FinancialNumericValue)} (hfamily : family ∈ families tables)
    (hm : m ∈ finditer family.1 text) : Stands text m ∧ '于' ∉ m.text := by
  have hchinese : (chineseShapes.all fun entry => !entry.2.chars.contains '于') = true := by decide
  have hsplit : (families tables).map (·.1) = chineseShapes.map (·.1) ++ [reArabic tables] := rfl
  have hpattern := List.mem_map_of_mem (f := (·.1)) hfamily
  rw [hsplit, List.mem_append, List.mem_singleton] at hpattern
  rcases hpattern with hpattern | harabic
  · obtain ⟨entry, hentry, heq⟩ := List.mem_map.mp hpattern
    have hshaped := chinese_shaped entry hentry m (heq ▸ hm)
    refine ⟨hshaped.stands, ?_⟩
    intro hmem
    have hnot := List.all_eq_true.mp hchinese entry hentry
    rw [List.contains_iff_mem.mpr (hshaped.mem_chars hmem)] at hnot
    cases hnot
  · rw [harabic] at hm
    obtain ⟨hstands, hchars, -⟩ := arabic_shaped hm
    exact ⟨hstands, fun hmem => @not_arabicChar tables ['于'] (by decide) '于' (List.mem_singleton_self _) (hchars _ hmem)⟩

/-- After `于` a match begins anew. -/
theorem start_after_barrier {family : List Regex × (Match → FinancialNumericValue)} (hfamily : family ∈ families tables)
    (hm : m ∈ finditer family.1 text) {i : Nat} (hi : text[i]? = some '于') (hstop : i + 1 < m.stop) : i + 1 ≤ m.start := by
  obtain ⟨hstands, hbarrier⟩ := barrier hfamily hm
  by_contra hlt
  exact hbarrier (List.mem_of_getElem? (hstands.mem hi (by omega) (by omega)))

end Barrier

section Precedence
variable {tables : NumberTables} {text : List Char}

theorem no_start_inside {s : Shape} {y x : Match} (hy : Shaped text s y) {before : List (List Regex × Shape)}
    (hbefore : before ⊆ chineseShapes) (hclear : (before.all fun entry => entry.2.clear s) = true) {pattern : List Regex}
    (hpattern : pattern ∈ before.map (·.1)) (hx : x ∈ finditer pattern text) (hle : y.start ≤ x.start) :
    y.stop ≤ x.start := by
  obtain ⟨entry, hentry, rfl⟩ := List.mem_map.mp hpattern
  by_contra hlt
  exact not_start_inside (List.all_eq_true.mp hclear entry hentry) (chinese_shaped entry (hbefore hentry) x hx) hy hle
    (Nat.lt_of_not_le hlt)

/-- A number that begins after `于` is taken, unless one of an earlier pattern begins inside it. -/
theorem registered_at (before : List (List Regex × (Match → FinancialNumericValue)))
    {after : List (List Regex × (Match → FinancialNumericValue))} {family : List Regex × (Match → FinancialNumericValue)}
    (hsplit : families tables = before ++ family :: after) {y : Match} (hy : y ∈ finditer family.1 text) {i : Nat} (hstart : y.start = i + 1) (hi : text[i]? = some '于')
    (hinside : ∀ other ∈ before, ∀ x ∈ finditer other.1 text, y.start < x.start → y.stop ≤ x.start) :
    ∃ r ∈ registered tables text, r.start = i + 1 := by
  have hfamilies : ∀ other ∈ before ++ [family], other ∈ families tables := by
    intro other hother
    rw [hsplit]
    rcases List.mem_append.mp hother with hbefore | heq
    · exact List.mem_append_left _ hbefore
    · exact List.mem_append_right _ (List.mem_singleton.mp heq ▸ List.mem_cons_self)
  have hfamily := hfamilies family (List.mem_append_right _ (List.mem_singleton_self _))
  have hpos : 0 < y.text.length :=
    List.length_pos_iff.mpr (finditer_parts (families_consuming tables family hfamily) hy).2.2
  have hstop : y.stop = y.start + y.text.length := rfl
  obtain ⟨r, hr, hlt, hlt', other, hother, x, hx, rfl⟩ := registered_covers hsplit hy (by omega)
  refine ⟨_, hr, ?_⟩
  change x.start < y.stop at hlt
  change y.start < x.stop at hlt'
  have hle := start_after_barrier (hfamilies other hother) hx hi (hstart ▸ hlt')
  rcases Nat.eq_or_lt_of_le hle with heq | hgt
  · exact heq.symm
  · rcases List.mem_append.mp hother with hbefore | heq
    · have hpast := hinside other hbefore x hx (hstart ▸ hgt)
      exact absurd hlt (Nat.not_lt.mpr hpast)
    · rw [List.mem_singleton.mp heq] at hx
      rw [finditer_eq_of_overlap (families_consuming tables family hfamily) hx hy hlt hlt']
      exact hstart

/-- `亿` is not found inside a number before `万`: it would have been found from the start of this number on. -/
theorem yi_not_inside_wan {y x : Match} (hy : y ∈ finditer reCnWan text) (hx : x ∈ finditer reCnYi text) {i : Nat}
    (hi : text[i]? = some '于') (hstart : y.start = i + 1) (hlt : y.start < x.start) : y.stop ≤ x.start := by
  have hwan := chinese_shaped _ wan_mem y hy
  have hyi := chinese_shaped _ yi_mem x hx
  have hconsuming := chinese_consuming _ yi_mem
  by_contra hinside
  have hstop : y.stop = y.start + y.text.length := rfl
  obtain ⟨head, marker, tail, htext, hne, hhead, hmarker, -⟩ := hyi.parts
  obtain ⟨rest, hrest⟩ := hyi.stands
  obtain ⟨after, hafter⟩ := hwan.stands
  have hbetween : text.drop y.start = y.text.take (x.start - y.start) ++ (head ++ marker :: (tail ++ rest)) := by
    have hsplit := (List.take_append_drop (x.start - y.start) (text.drop y.start)).symm
    rw [List.drop_drop, Nat.add_sub_cancel' hlt.le, hrest, htext, hafter, List.take_append_of_le_length (by omega),
      ← hafter, List.append_assoc, List.cons_append] at hsplit
    exact hsplit
  have hrun : ∀ c ∈ y.text.take (x.start - y.start) ++ head, cnNum.toList.contains c = true := by
    have hchars : (wanShape.chars.all cnNum.toList.contains) = true := by decide
    intro c hc
    rcases List.mem_append.mp hc with hc | hc
    · exact List.all_eq_true.mp hchars c (hwan.mem_chars (List.mem_of_mem_take hc))
    · exact List.contains_iff_mem.mpr (hhead c hc)
  have hreads : Regex.groups reCnYi (placeAt text y.start) ≠ [] := by
    rw [placeAt, hbetween, ← List.append_assoc]
    exact groups_run_ne_nil (List.append_ne_nil_of_right_ne_nil _ hne) hrun (decide_eq_true (List.mem_singleton.mp hmarker)) _ _
  have hlength : y.start < text.length := by
    have hsize := congrArg List.length hafter
    rw [List.length_drop, List.length_append] at hsize
    omega
  obtain ⟨z, hz, hzle, hzlt⟩ := covered_by_finditer hconsuming hlength hreads
  have hzshaped := chinese_shaped _ yi_mem z hz
  have hzstart : i + 1 ≤ z.start :=
    @start_after_barrier plainNumberTables text z (reCnYi, cnYi) (by simp [families]) hz i hi (hstart ▸ hzlt)
  have hzstop : z.stop ≤ x.start := by
    by_contra hover
    have hsame := finditer_eq_of_overlap hconsuming hz hx (by have := hyi.last.choose_spec.2.1; omega) (by omega)
    rw [hsame] at hzle
    omega
  obtain ⟨c, hc, hzpos, hzlast⟩ := hzshaped.last
  have hmem := hwan.mem_chars (List.mem_of_getElem? (hwan.stands.mem hzlast (by omega) (by omega)))
  rw [List.mem_singleton.mp hc] at hmem
  exact absurd hmem (by decide)

/-- Nothing of one match lies in the other. -/
def Disjoint (m m' : Match) : Prop := m.stop ≤ m'.start ∨ m'.stop ≤ m.start

/-- A number in Chinese or in digits begins here; the `万` of one in digits is not the first of a number before `亿`. -/
def NumberAt (tables : NumberTables) (text : List Char) (i : Nat) : Prop :=
  (∃ entry ∈ chineseShapes, ∃ m ∈ finditer entry.1 text, m.start = i) ∨
    ∃ m ∈ finditer (reArabic tables) text, m.start = i ∧ ∀ y ∈ finditer reCnYi text, Disjoint y m

/-- A range that is no percentage ends here in `多`. -/
def RangeEndsAt (text : List Char) (i : Nat) : Prop :=
  ∃ m ∈ finditer reRangeDuo text, m.stop = i ∧ ['多'] <:+ m.text ∧ ∀ p ∈ finditer rePercentCn text, Disjoint p m

theorem mem_patterns {k : Nat} {other : List Regex × (Match → FinancialNumericValue)} (hk : k ≤ 6)
    (h : other ∈ (families tables).take k) : other.1 ∈ (chineseShapes.take k).map (·.1) := by
  have hsplit : (families tables).map (·.1) = chineseShapes.map (·.1) ++ [reArabic tables] := rfl
  have hmem := List.mem_map_of_mem (f := (·.1)) h
  rwa [List.map_take, hsplit, List.take_append_of_le_length (by simpa [chineseShapes] using hk), ← List.map_take] at hmem

theorem number_registered {i : Nat} (hi : text[i]? = some '于') (h : NumberAt tables text (i + 1)) :
    ∃ r ∈ registered tables text, r.start = i + 1 := by
  have hearlier {k : Nat} (hk : k ≤ 6) {s : Shape} (hclear : ((chineseShapes.take k).all fun entry => entry.2.clear s) = true)
      {y : Match} (hy : Shaped text s y) : ∀ other ∈ (families tables).take k, ∀ x ∈ finditer other.1 text,
      y.start < x.start → y.stop ≤ x.start := fun other hother x hx hlt =>
    no_start_inside hy (List.take_subset k chineseShapes) hclear (mem_patterns hk hother) hx hlt.le
  rcases h with ⟨entry, hentry, y, hy, hstart⟩ | ⟨y, hy, hstart, hfree⟩
  · have hshaped := chinese_shaped entry hentry y hy
    simp only [chineseShapes, List.mem_cons, List.not_mem_nil, or_false] at hentry
    rcases hentry with rfl | rfl | rfl | rfl | rfl | rfl
    · exact registered_at ((families tables).take 0) rfl hy hstart hi (hearlier (by decide) (by decide) hshaped)
    · exact registered_at ((families tables).take 1) rfl hy hstart hi (hearlier (by decide) (by decide) hshaped)
    · exact registered_at ((families tables).take 2) rfl hy hstart hi (hearlier (by decide) (by decide) hshaped)
    · exact registered_at ((families tables).take 3) rfl hy hstart hi (hearlier (by decide) (by decide) hshaped)
    · refine registered_at ((families tables).take 4) rfl hy hstart hi ?_
      intro other hother x hx hlt
      have hsplit : (families tables).take 4 = (families tables).take 3 ++ [(reCnYi, cnYi)] := rfl
      rw [hsplit] at hother
      rcases List.mem_append.mp hother with hbefore | heq
      · exact hearlier (by decide) (by decide) hshaped other hbefore x hx hlt
      · rw [List.mem_singleton.mp heq] at hx
        exact yi_not_inside_wan hy hx hi hstart hlt
    · exact registered_at ((families tables).take 5) rfl hy hstart hi (hearlier (by decide) (by decide) hshaped)
  · obtain ⟨hstands, hchars, -⟩ := arabic_shaped hy
    refine registered_at ((families tables).take 6) rfl hy hstart hi ?_
    intro other hother x hx hlt
    obtain ⟨entry, hentry, heq⟩ := List.mem_map.mp (mem_patterns (Nat.le_refl 6) hother)
    have hmem : entry ∈ chineseShapes := List.mem_of_mem_take hentry
    rw [← heq] at hx
    have hshaped := chinese_shaped entry hmem x hx
    obtain ⟨c, hc, hfirst⟩ := hshaped.first
    by_contra hinside
    have harabic := hchars c (List.mem_of_getElem? (hstands.mem hfirst hlt.le (Nat.lt_of_not_le hinside)))
    simp only [chineseShapes, List.mem_cons, List.not_mem_nil, or_false] at hmem
    rcases hmem with rfl | rfl | rfl | rfl | rfl | rfl
    · exact not_arabicChar (by decide) c hc harabic
    · exact not_arabicChar (by decide) c hc harabic
    · exact not_arabicChar (by decide) c hc harabic
    · obtain ⟨-, -, hpos, -⟩ := hshaped.last
      rcases hfree x hx with hle | hle
      · omega
      · exact hinside hle
    · exact not_arabicChar (by decide) c hc harabic
    · exact not_arabicChar (by decide) c hc harabic

theorem range_registered {i : Nat} (h : RangeEndsAt text i) : ∃ r ∈ registered tables text, r.stop = i := by
  obtain ⟨m, hm, hstop, -, hfree⟩ := h
  have hduo := chinese_shaped _ duo_mem m hm
  obtain ⟨-, -, hpos, -⟩ := hduo.last
  obtain ⟨r, hr, hlt, hlt', other, hother, x, hx, rfl⟩ :=
    registered_covers (show families tables = (families tables).take 2 ++ (reRangeDuo, rangeDuo) ::
      (families tables).drop 3 from rfl) hm hpos
  change x.start < m.stop at hlt
  change m.start < x.stop at hlt'
  refine ⟨_, hr, ?_⟩
  change x.stop = i
  simp only [families, List.take_succ_cons, List.take_zero, List.cons_append, List.nil_append, List.mem_cons,
    List.not_mem_nil, or_false] at hother
  rcases hother with rfl | rfl | rfl
  · rcases hfree x hx with hle | hle <;> omega
  · have hlai := chinese_shaped _ laiJi_mem x hx
    rcases Nat.le_total m.start x.start with hle | hle
    · exact (not_start_inside (by decide) hlai hduo hle hlt).elim
    · exact (not_start_inside (by decide) hduo hlai hle hlt').elim
  · rw [finditer_eq_of_overlap (chinese_consuming _ duo_mem) hx hm hlt hlt']
    exact hstop

end Precedence

section Raw
variable {tables : NumberTables} {text : List Char}

theorem getElem?_slice {start stop k : Nat} (h : start + k < stop) : (slice text start stop)[k]? = text[start + k]? := by
  rw [slice, List.getElem?_drop, List.getElem?_take_of_lt h]

theorem slice_append {start middle stop : Nat} (h : start ≤ middle) (h' : middle ≤ stop) :
    slice text start stop = slice text start middle ++ slice text middle stop := by
  have hfirst : slice text start middle = (slice text start stop).take (middle - start) := by
    rw [slice, slice, List.drop_take, List.drop_take, List.take_take, Nat.min_eq_left (Nat.sub_le_sub_right h' _)]
  have hsecond : slice text middle stop = (slice text start stop).drop (middle - start) := by
    rw [slice, slice, List.drop_drop, Nat.add_sub_cancel' h]
  rw [hfirst, hsecond, List.take_append_drop]

theorem slice_one {i : Nat} {c : Char} (h : text[i]? = some c) : slice text i (i + 1) = [c] := by
  rw [slice, List.take_add_one, h, List.drop_append, List.drop_take]
  have hlt : i < text.length := (List.getElem?_eq_some_iff.mp h).1
  simp [Nat.min_eq_left hlt.le]

/-- The raw expression begins with the number, or with the comparison word that ends where the number begins. -/
theorem rawStart_cases (text : List Char) (start : Nat) : rawStart text start = start ∨
    ∃ word comparator, prefixComparator text start = some (word, comparator) ∧
      rawStart text start + word.length = start ∧ slice text (rawStart text start) start = word := by
  unfold rawStart
  split
  case h_2 => exact .inl rfl
  case h_1 word comparator hfound =>
    split
    case isFalse => exact .inl rfl
    case isTrue hslice =>
      right
      refine ⟨word, comparator, hfound, Nat.sub_add_cancel ?_, hslice⟩
      have hin := List.find?_some hfound
      rw [decide_eq_true_eq] at hin
      have hle : word.length ≤ (slice text (start - 4) start).length := hin.length_le
      rw [slice, List.length_drop, List.length_take] at hle
      omega

theorem rawStart_le (text : List Char) (start : Nat) : rawStart text start ≤ start := by
  rcases rawStart_cases text start with heq | ⟨word, comparator, -, hlength, -⟩ <;> omega

theorem number_nonempty {r : Registered} (h : r ∈ orderedNumbers tables text) : r.start < r.stop := by
  obtain ⟨family, hfamily, m, hm, rfl⟩ := (registered_spec tables text).2 r (mem_orderedNumbers.mp h)
  have hpos := List.length_pos_iff.mpr (finditer_parts (families_consuming tables family hfamily) hm).2.2
  exact Nat.lt_add_of_pos_right hpos

/-- The numbers come in the order of their spans, which are apart. -/
theorem orderedNumbers_apart (tables : NumberTables) (text : List Char) :
    (orderedNumbers tables text).Pairwise fun r r' => r.stop ≤ r'.start := by
  have hsorted : (orderedNumbers tables text).Pairwise fun r r' => r.start ≤ r'.start :=
    List.pairwise_insertionSort (fun r r' : Registered => r.start ≤ r'.start) _
  have hapart : (orderedNumbers tables text).Pairwise Apart :=
    (List.perm_insertionSort (fun r r' : Registered => r.start ≤ r'.start) _).symm.pairwise
      (registered_spec tables text).1 fun h => h.symm
  refine (hsorted.and hapart).imp_of_mem ?_
  rintro r r' - hr' ⟨hle, hone | hother⟩
  · exact hone
  · have hpos := number_nonempty hr'
    omega

theorem raw_eq {r : Registered} (h : r ∈ orderedNumbers tables text) :
    r.value.rawExpression = slice text (rawStart text r.start) r.stop := by
  obtain ⟨family, hfamily, m, hm, rfl⟩ := (registered_spec tables text).2 r (mem_orderedNumbers.mp h)
  rfl

/-- Spans are apart and in order; a raw expression is the text of the span, after the comparison word of the number
if the word stands right before it; raw expressions are apart. -/
structure ExactSpans (tables : NumberTables) (text : List Char) : Prop where
  spans : (orderedNumbers tables text).Pairwise fun r r' => r.stop ≤ r'.start
  raw : ∀ r ∈ orderedNumbers tables text, r.start < r.stop ∧
    r.value.rawExpression = slice text (rawStart text r.start) r.stop ∧
    (rawStart text r.start = r.start ∨ ∃ word comparator, (word, comparator) ∈ comparatorPrefixes ∧
      r.value.comparator = some comparator ∧ rawStart text r.start + word.length = r.start ∧
      slice text (rawStart text r.start) r.start = word)
  apart : (orderedNumbers tables text).Pairwise fun r r' => r.stop ≤ rawStart text r'.start

/-- A range that ends in `多` stands before `于` and a number. -/
def SharesWord (tables : NumberTables) (text : List Char) : Prop :=
  ∃ i, RangeEndsAt text i ∧ text[i]? = some '于' ∧ NumberAt tables text (i + 1)

theorem raw_spec {r : Registered} (h : r ∈ orderedNumbers tables text) : r.start < r.stop ∧
    r.value.rawExpression = slice text (rawStart text r.start) r.stop ∧
    (rawStart text r.start = r.start ∨ ∃ word comparator, (word, comparator) ∈ comparatorPrefixes ∧
      r.value.comparator = some comparator ∧ rawStart text r.start + word.length = r.start ∧
      slice text (rawStart text r.start) r.start = word) := by
  refine ⟨number_nonempty h, raw_eq h, ?_⟩
  rcases rawStart_cases text r.start with heq | ⟨word, comparator, hfound, hlength, hslice⟩
  · exact .inl heq
  · refine .inr ⟨word, comparator, List.mem_of_find?_eq_some hfound, ?_, hlength, hslice⟩
    have hword : foundWord (slice text (r.start - 4) r.start) = some (word, comparator) := hfound
    rw [comparator_eq h, hword]
    rfl

/-- A range that ends in `多` has nothing else after its number. -/
theorem range_ends {m : Match} (h : Shaped text duoShape m) (hlast : m.text.getLast? = some '多') :
    ∃ head, m.text = head ++ ['多'] ∧ head ≠ [] ∧ ∀ c ∈ head, c ∈ duoShape.head := by
  obtain ⟨head, marker, tail, htext, hne, hhead, hmarker, htail⟩ := h.parts
  rcases List.eq_nil_or_concat tail with rfl | ⟨rest, c, rfl⟩
  · exact ⟨head, by rw [htext, List.mem_singleton.mp hmarker], hne, hhead⟩
  · have hc := htail c (by simp)
    have heq : m.text.getLast? = some c := by
      rw [htext, List.concat_eq_append, ← List.cons_append, ← List.append_assoc, List.getLast?_concat]
    rw [heq, Option.some_inj] at hlast
    exact absurd (hlast ▸ hc) (by decide)

theorem infix_append_cons {w l r : List Char} {c : Char} (h : w <:+: l ++ c :: r) (hc : c ∉ w) : w <:+: l ∨ w <:+: r := by
  obtain ⟨before, after, heq⟩ := h
  rw [List.append_assoc] at heq
  rcases List.append_eq_append_iff.mp heq with ⟨middle, hl, hrest⟩ | ⟨middle, hbefore, hrest⟩
  · rcases List.append_eq_append_iff.mp hrest with ⟨middle', hmiddle, hafter⟩ | ⟨middle', hword, hafter⟩
    · exact .inl ⟨before, middle', by rw [hl, hmiddle, List.append_assoc]⟩
    · cases middle' with
      | nil =>
        left
        rw [List.append_nil] at hword
        exact ⟨before, [], by rw [hl, hword, List.append_nil]⟩
      | cons d middle' =>
        rw [List.cons_append, List.cons.injEq] at hafter
        exact absurd (by rw [hword, hafter.1]; simp) hc
  · cases middle with
    | nil =>
      cases w with
      | nil => exact .inl (List.nil_infix)
      | cons d w =>
        rw [List.nil_append, List.cons_append, List.cons.injEq] at hrest
        exact absurd (by rw [hrest.1]; exact List.mem_cons_self) hc
    | cons d middle =>
      right
      rw [List.cons_append, List.cons.injEq] at hrest
      exact ⟨middle, after, by rw [List.append_assoc]; exact hrest.2.symm⟩

/-- Right after a range and `于` the comparison word is `多于`. -/
theorem rawStart_after_range {i : Nat} (hrange : RangeEndsAt text i) (hi : text[i]? = some '于') :
    rawStart text (i + 1) + 1 = i := by
  obtain ⟨m, hm, rfl, hsuffix, -⟩ := hrange
  have hshaped := chinese_shaped _ duo_mem m hm
  have hlast : m.text.getLast? = some '多' := by
    obtain ⟨before, hbefore⟩ := hsuffix
    rw [← hbefore, List.getLast?_concat]
  obtain ⟨head, htext, hne, hhead⟩ := range_ends hshaped hlast
  obtain ⟨init, c, rfl⟩ := (List.eq_nil_or_concat head).resolve_left hne
  rw [List.concat_eq_append, List.append_assoc, List.singleton_append] at htext
  have hlength : m.text.length = init.length + 2 := by
    rw [htext, List.length_append]
    rfl
  have hstop : m.stop = m.start + init.length + 2 := by rw [Match.stop, hlength, Nat.add_assoc]
  have hc : text[m.start + init.length]? = some c := by
    rw [hshaped.stands.getElem? (by omega), htext, List.getElem?_append_right (Nat.le_refl _), Nat.sub_self]
    rfl
  have hduo : text[m.start + init.length + 1]? = some '多' := by
    rw [Nat.add_assoc, hshaped.stands.getElem? (by omega), htext, List.getElem?_append_right (by omega),
      Nat.add_sub_cancel_left]
    rfl
  rw [hstop] at hi ⊢
  generalize m.start + init.length = j at hc hduo hi
  have hword : slice text (j + 1) (j + 3) = "多于".toList := by
    rw [slice_append (Nat.le_add_right (j + 1) 1) (by omega), slice_one hduo, slice_one hi]
    decide
  have hwindow : slice text (j + 2 + 1 - 4) (j + 2 + 1) = slice text (j - 1) j ++ c :: "多于".toList := by
    have hstart : j + 2 + 1 - 4 = j - 1 := by omega
    rw [hstart, slice_append (Nat.sub_le j 1) (by omega), slice_append (Nat.le_succ j) (by omega), slice_one hc, hword,
      List.singleton_append]
  have hfound : prefixComparator text (j + 2 + 1) = some ("多于".toList, .gt) := by
    have hcheck : ((comparatorPrefixes.take 8).all fun entry => 2 ≤ entry.1.length && !(entry.1 <:+: "多于".toList) &&
        duoShape.head.all (!entry.1.contains ·)) = true := by decide
    rw [prefixComparator, hwindow]
    refine List.find?_eq_some_iff_append.mpr ⟨?_, comparatorPrefixes.take 8, comparatorPrefixes.drop 9, by decide, ?_⟩
    · rw [decide_eq_true_eq]
      exact (List.suffix_append (slice text (j - 1) j ++ [c]) _).isInfix.trans (by rw [List.append_assoc]; rfl)
    · intro entry hentry
      have hfacts := List.all_eq_true.mp hcheck entry hentry
      simp only [Bool.and_eq_true, decide_eq_true_eq, Bool.not_eq_true', decide_eq_false_iff_not] at hfacts ⊢
      obtain ⟨⟨htwo, hnot⟩, hclear⟩ := hfacts
      intro hinfix
      have hfree : c ∉ entry.1 := by
        intro hmem
        have hcontains := List.all_eq_true.mp hclear c (hhead c (by simp))
        rw [List.contains_iff_mem.mpr hmem] at hcontains
        cases hcontains
      rcases infix_append_cons hinfix hfree with hfirst | hsecond
      · have hle := hfirst.length_le
        rw [slice, List.length_drop, List.length_take] at hle
        omega
      · exact hnot hsecond
  have hlengthWord : "多于".toList.length = 2 := by decide
  rw [rawStart, hfound]
  dsimp only
  rw [hlengthWord, Nat.add_assoc j 2 1, Nat.add_sub_assoc (by decide), hword, if_pos rfl]

/-- The last character of a number is in no comparison word, but for the `多` of a range. -/
theorem shared_character {r : Registered} (h : r ∈ orderedNumbers tables text) {entry : List Char × Comparator}
    (hentry : entry ∈ comparatorPrefixes) {c : Char} (hc : c ∈ entry.1) (hlast : text[r.stop - 1]? = some c) :
    c = '多' ∧ ∃ m ∈ finditer reRangeDuo text, r.start = m.start ∧ r.stop = m.stop := by
  have hwords : (comparatorPrefixes.all fun entry => entry.1.all fun c =>
      ('一' ≤ c && c ≤ '鿿' && !".%％倍亿万点元".toList.contains c) &&
      (chineseShapes.take 2 ++ chineseShapes.drop 3).all (!·.2.ending.contains c) &&
      (c = '多' || !duoShape.ending.contains c)) = true := by decide
  have hword := List.all_eq_true.mp (List.all_eq_true.mp hwords entry hentry) c hc
  rw [Bool.and_eq_true, Bool.and_eq_true, List.all_eq_true] at hword
  obtain ⟨⟨hideograph, hclear⟩, hduo⟩ := hword
  obtain ⟨family, hfamily, m, hm, rfl⟩ := (registered_spec tables text).2 r (mem_orderedNumbers.mp h)
  change text[m.stop - 1]? = some c at hlast
  have hother {shape : List Regex × Shape} (hshape : shape ∈ chineseShapes) (hm : m ∈ finditer shape.1 text)
      (hclear : (!shape.2.ending.contains c) = true) : False := by
    obtain ⟨d, hd, -, hdlast⟩ := (chinese_shaped shape hshape m hm).last
    rw [hlast, Option.some_inj] at hdlast
    rw [hdlast, List.contains_iff_mem.mpr hd] at hclear
    cases hclear
  simp only [families, List.mem_cons, List.not_mem_nil, or_false] at hfamily
  rcases hfamily with rfl | rfl | rfl | rfl | rfl | rfl | rfl
  · exact (hother percent_mem hm (hclear _ (by simp [chineseShapes]))).elim
  · exact (hother laiJi_mem hm (hclear _ (by simp [chineseShapes]))).elim
  · refine ⟨?_, m, hm, rfl, rfl⟩
    rcases Bool.or_eq_true_iff.mp hduo with heq | hclear
    · exact of_decide_eq_true heq
    · exact (hother duo_mem hm hclear).elim
  · exact (hother yi_mem hm (hclear _ (by simp [chineseShapes]))).elim
  · exact (hother wan_mem hm (hclear _ (by simp [chineseShapes]))).elim
  · exact (hother unit_mem hm (hclear _ (by simp [chineseShapes]))).elim
  · obtain ⟨hstands, hchars, -⟩ := arabic_shaped hm
    have hpos := number_nonempty h
    change m.start < m.stop at hpos
    have hmem := List.mem_of_getElem? (hstands.mem hlast (by omega) (by omega))
    have hall : ([c].all fun c => '一' ≤ c && c ≤ '鿿' && !".%％倍亿万点元".toList.contains c) = true := by
      rw [List.all_cons, hideograph]
      rfl
    exact (not_arabicChar hall c (List.mem_singleton_self _) (hchars c hmem)).elim

/-- Numbers that are taken and share a place are the same. -/
theorem eq_of_overlap {r r' : Registered} (h : r ∈ registered tables text) (h' : r' ∈ registered tables text)
    (hlt : r.start < r'.stop) (hlt' : r'.start < r.stop) : r = r' := by
  by_contra hne
  have hsymm : Std.Symm Apart := ⟨fun _ _ => Or.symm⟩
  rcases (registered_spec tables text).1.forall h h' hne with hle | hle <;> omega

/-- A range that has been taken is no part of a percentage. -/
theorem range_free {r : Registered} (h : r ∈ registered tables text) {m : Match} (hm : m ∈ finditer reRangeDuo text)
    (hstart : r.start = m.start) (hstop : r.stop = m.stop) : ∀ p ∈ finditer rePercentCn text, Disjoint p m := by
  intro p hp
  have hpercent := chinese_shaped _ percent_mem p hp
  have hduo := chinese_shaped _ duo_mem m hm
  obtain ⟨-, -, hpos, -⟩ := hpercent.last
  obtain ⟨r', hr', hlt, hlt', other, hother, x, hx, rfl⟩ :=
    registered_covers (show families tables = [] ++ (rePercentCn, percentCn) :: (families tables).drop 1 from rfl) hp hpos
  rw [List.nil_append, List.mem_singleton] at hother
  rw [hother] at hx
  change x.start < p.stop at hlt
  change p.start < x.stop at hlt'
  have hsame := finditer_eq_of_overlap (chinese_consuming _ percent_mem) hx hp hlt hlt'
  by_contra hover
  have hover' : p.start < m.stop ∧ m.start < p.stop := by
    rw [Disjoint, not_or] at hover
    omega
  have heq := eq_of_overlap h hr' (by change r.start < x.stop; rw [hsame]; omega) (by change x.start < r.stop; rw [hsame]; omega)
  have hstart' : m.start = p.start := by
    rw [← hstart, heq, ← hsame]
    rfl
  exact not_start_inside (by decide) hpercent hduo hstart'.le hover'.1

/-- A number in digits that has been taken shares nothing with `亿` and what is before it. -/
theorem arabic_free {r : Registered} (h : r ∈ registered tables text) {m : Match} (hm : m ∈ finditer (reArabic tables) text)
    (hstart : r.start = m.start) (hstop : r.stop = m.stop) : ∀ y ∈ finditer reCnYi text, Disjoint y m := by
  obtain ⟨-, -, digit, hdigit, hdecimal⟩ := arabic_shaped hm
  intro y hy
  have hyi := chinese_shaped _ yi_mem y hy
  obtain ⟨-, -, hpos, -⟩ := hyi.last
  -- No match in Chinese covers the first digit.
  have hchinese {shape : List Regex × Shape} (hshape : shape ∈ chineseShapes) {x : Match} (hx : Shaped text shape.2 x)
      (hle : x.start ≤ m.start) (hlt : m.start < x.stop) : False := by
    have hmem := hx.mem_chars (List.mem_of_getElem? (hx.stands.mem hdigit hle hlt))
    rw [chinese_not_decimal tables hshape hmem] at hdecimal
    cases hdecimal
  by_contra hover
  rw [Disjoint, not_or] at hover
  have hafter : m.start < y.start := by
    by_contra hle
    exact hchinese yi_mem hyi (by omega) (by omega)
  obtain ⟨r', hr', hlt, hlt', other, hother, x, hx, rfl⟩ :=
    registered_covers (show families tables = (families tables).take 3 ++ (reCnYi, cnYi) :: (families tables).drop 4
      from rfl) hy hpos
  change x.start < y.stop at hlt
  change y.start < x.stop at hlt'
  have hfour : other ∈ (families tables).take 4 := hother
  have hpattern := mem_patterns (by decide) hfour
  obtain ⟨shape, hshape, hsame⟩ := List.mem_map.mp hpattern
  have hshaped := chinese_shaped shape (List.mem_of_mem_take hshape) x (hsame ▸ hx)
  have hle : x.start ≤ y.start := by
    rcases List.mem_append.mp hother with hbefore | heq
    · by_contra hgt
      have hpast := no_start_inside hyi (List.take_subset 3 chineseShapes) (by decide)
        (mem_patterns (by decide) hbefore) hx (by omega)
      omega
    · rw [List.mem_singleton.mp heq] at hx
      rw [finditer_eq_of_overlap (chinese_consuming _ yi_mem) hx hy hlt hlt']
  have heq := eq_of_overlap h hr' (by change r.start < x.stop; omega) (by change x.start < r.stop; omega)
  have hfirst : m.start = x.start := by
    rw [← hstart, heq]
    rfl
  exact hchinese (List.mem_of_mem_take hshape) hshaped hfirst.ge (by omega)

theorem number_at {r : Registered} (h : r ∈ registered tables text) : NumberAt tables text r.start := by
  obtain ⟨family, hfamily, m, hm, rfl⟩ := (registered_spec tables text).2 r h
  have hsplit : (families tables).map (·.1) = chineseShapes.map (·.1) ++ [reArabic tables] := rfl
  have hpattern := List.mem_map_of_mem (f := (·.1)) hfamily
  rw [hsplit, List.mem_append, List.mem_singleton] at hpattern
  rcases hpattern with hchinese | harabic
  · obtain ⟨entry, hentry, heq⟩ := List.mem_map.mp hchinese
    exact .inl ⟨entry, hentry, m, heq ▸ hm, rfl⟩
  · rw [harabic] at hm
    exact .inr ⟨m, hm, rfl, arabic_free h hm rfl rfl⟩

/-- A comparison word that reaches back into a number is `多于` after a range. -/
theorem sharesWord_of_overlap {a b : Registered} (ha : a ∈ orderedNumbers tables text) (hb : b ∈ orderedNumbers tables text)
    (hle : a.stop ≤ b.start) (hlt : rawStart text b.start < a.stop) : SharesWord tables text := by
  have hduoWords : (comparatorPrefixes.all fun entry => (List.range 3).all fun k =>
      entry.1[k]? ≠ some '多' || (k = 0 && entry.1 = "多于".toList) ||
        (k = 1 && entry.1.head?.all (!duoShape.head.contains ·))) = true := by decide
  obtain ⟨word, comparator, hfound, hlength, hslice⟩ := (rawStart_cases text b.start).resolve_left (by omega)
  have hword : (word, comparator) ∈ comparatorPrefixes := List.mem_of_find?_eq_some hfound
  generalize hraw : rawStart text b.start = start at hlt hlength hslice
  have hpos := number_nonempty ha
  have hstart := start_lt_length hb
  -- The last character of the number before is the `k`-th of the word.
  obtain ⟨k, hk⟩ := Nat.exists_eq_add_of_lt hlt
  have hchar (j : Nat) (hj : j < word.length) : word[j]? = text[start + j]? := by
    rw [← hslice, getElem?_slice (by omega)]
  have hkword : k < word.length := by omega
  obtain ⟨c, hc⟩ : ∃ c, word[k]? = some c := ⟨_, List.getElem?_eq_getElem hkword⟩
  have hlast : text[a.stop - 1]? = some c := by
    rw [← hc, hchar k hkword]
    congr 1
    omega
  obtain ⟨rfl, m, hm, hmstart, hmstop⟩ := shared_character ha hword (List.mem_of_getElem? hc) hlast
  have hshaped := chinese_shaped _ duo_mem m hm
  have hstop : m.stop = m.start + m.text.length := rfl
  have hmlast : m.text.getLast? = some '多' := by
    rw [List.getLast?_eq_getElem?, ← hshaped.stands.getElem? (by omega), ← hlast]
    congr 1
    omega
  obtain ⟨head, htext, hne, hhead⟩ := range_ends hshaped hmlast
  have hsize : m.text.length = head.length + 1 := by rw [htext, List.length_append, List.length_singleton]
  have hheadPos := List.length_pos_iff.mpr hne
  have hlimit : (comparatorPrefixes.all fun entry => entry.1.length ≤ 3) = true := by decide
  have hshort : word.length ≤ 3 := of_decide_eq_true (List.all_eq_true.mp hlimit _ hword)
  have hcases := List.all_eq_true.mp (List.all_eq_true.mp hduoWords _ hword) k (List.mem_range.mpr (by omega))
  simp only [hc, Bool.or_eq_true, Bool.and_eq_true, decide_eq_true_eq, ne_eq, not_true_eq_false, false_or] at hcases
  rcases hcases with ⟨rfl, rfl⟩ | ⟨rfl, hhead0⟩
  · have htwo : "多于".toList.length = 2 := by decide
    refine ⟨a.stop, ⟨m, hm, hmstop.symm, ⟨head, htext.symm⟩, range_free (mem_orderedNumbers.mp ha) hm hmstart hmstop⟩, ?_, ?_⟩
    · rw [hk, ← hchar 1 (by omega)]
      decide
    · have hat := number_at (mem_orderedNumbers.mp hb)
      rwa [← hlength, htwo, show start + 2 = a.stop + 1 by omega] at hat
  · -- The character before `多` in the word is none of a number.
    obtain ⟨d, hd⟩ : ∃ d, word[0]? = some d := ⟨_, List.getElem?_eq_getElem (by omega)⟩
    have hbefore : head[head.length - 1]? = some d := by
      have hin : m.text[head.length - 1]? = some d := by
        rw [← hshaped.stands.getElem? (by omega), ← hd, hchar 0 (by omega)]
        congr 1
        omega
      rwa [htext, List.getElem?_append_left (by omega)] at hin
    rw [List.head?_eq_getElem?, hd, Option.all_some,
      List.contains_iff_mem.mpr (hhead d (List.mem_of_getElem? hbefore))] at hhead0
    cases hhead0

/-- Raw expressions share characters exactly if a range is followed by `于` and a number. -/
theorem exactSpans_iff (tables : NumberTables) (text : List Char) : ExactSpans tables text ↔ ¬ SharesWord tables text := by
  constructor
  · rintro hexact ⟨i, hrange, hi, hnumber⟩
    obtain ⟨a, ha, hstop⟩ : ∃ r ∈ registered tables text, r.stop = i := range_registered hrange
    obtain ⟨b, hb, hstart⟩ := number_registered hi hnumber
    have hmema := mem_orderedNumbers.mpr ha
    have hmemb := mem_orderedNumbers.mpr hb
    have hapos := number_nonempty hmema
    have hbpos := number_nonempty hmemb
    have hne : a ≠ b := by
      rintro rfl
      omega
    have hraw := rawStart_after_range hrange hi
    rw [← hstart] at hraw
    rcases Storage.pairwise_either hexact.apart hmema hmemb hne with hle | hle
    · omega
    · have hback := rawStart_le text a.start
      omega
  · intro hfree
    refine ⟨orderedNumbers_apart tables text, fun r => raw_spec, ?_⟩
    refine (orderedNumbers_apart tables text).imp_of_mem ?_
    intro a b ha hb hle
    by_contra hlt
    exact hfree (sharesWord_of_overlap ha hb hle (Nat.lt_of_not_le hlt))

/-- In 十多于5 the 多 belongs to both expressions. -/
theorem shared_range_word :
    (parseFinancialNumerics plainNumberTables "十多于5".toList).map (·.rawExpression) = ["十多".toList, "多于5".toList] ∧
    ¬ ∀ (tables : NumberTables) (text : List Char), ExactSpans tables text := by
  refine ⟨by decide, ?_⟩
  intro hall
  have hpair : ¬ (orderedNumbers plainNumberTables "十多于5".toList).Pairwise fun r r' =>
      r.stop ≤ rawStart "十多于5".toList r'.start := by decide
  exact hpair (hall plainNumberTables _).apart

end Raw
end StockContent.Numeric
