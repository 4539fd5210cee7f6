import Mathlib.Data.List.Find
import Mathlib.Data.List.Infix
import Mathlib.Data.List.Sublists
import StockContent.Numeric.FinancialNumeric

/-! Which comparison word a number takes: the first one of the table within four characters, against the one that
stands right before the number. -/
namespace StockContent.Numeric
open StockContent.Text

section Windows
variable {α : Type}

theorem suffix_drop_iff {word before : List α} {n : Nat} (h : word.length ≤ n) :
    word <:+ before.drop (before.length - n) ↔ word <:+ before := by
  constructor
  · exact fun hsuffix => hsuffix.trans (List.drop_suffix _ _)
  · intro hsuffix
    refine List.suffix_of_suffix_length_le hsuffix (List.drop_suffix _ _) ?_
    have hle := hsuffix.length_le
    rw [List.length_drop]
    omega

/-- A word that starts in the first part of a text ends in it or goes on in the second. -/
theorem prefix_append_cases (first : List α) {word second : List α} (h : word <+: first ++ second) (hle : first.length ≤ word.length) :
    first = word.take first.length ∧ word.drop first.length <+: second := by
  obtain ⟨rest, hrest⟩ := h
  obtain ⟨tail, rfl⟩ : first <+: word :=
    List.prefix_of_prefix_length_le (List.prefix_append first second) ⟨rest, hrest⟩ hle
  rw [List.append_assoc, List.append_cancel_left_eq] at hrest
  exact ⟨List.take_left.symm, by rw [List.drop_left]; exact ⟨rest, hrest⟩⟩

end Windows

inductive Direction where
  | below | above
  deriving DecidableEq, Repr

def Direction.opposite : Direction → Direction
  | .below => .above
  | .above => .below

def Comparator.direction : Comparator → Option Direction
  | .lt | .lte => some .below
  | .gt | .gte => some .above
  | .eq | .approx => none

section Words

/-- The words that compare, with what they say; a negated word stands before the word it negates. -/
def comparisonWords : List (List Char × Direction) :=
  [("不低于", Direction.above), ("不少于", .above), ("不小于", .above), ("不超过", .below), ("不高于", .below),
    ("不多于", .below), ("不大于", .below), ("不到", .below), ("不足", .below), ("低于", .below), ("少于", .below),
    ("小于", .below), ("超过", .above), ("高于", .above), ("多于", .above), ("大于", .above), ("至少", .above),
    ("最少", .above), ("至多", .below), ("最多", .below)].map fun entry => (entry.1.toList, entry.2)

/-- What the text before a number says about it. -/
def directionBefore (before : List Char) : Option Direction :=
  (comparisonWords.find? fun entry => entry.1 <:+ before).map (·.2)

/-- The comparison word that the parser finds in a window. -/
def foundWord (window : List Char) : Option (List Char × Comparator) :=
  comparatorPrefixes.find? fun entry => entry.1 <:+: window

def foundDirection (window : List Char) : Option Direction := (foundWord window).bind (·.2.direction)

/-- Negated words that the table does not have, and a word after one of the opposite direction that the table has
before it. -/
def misleadingWords : List (List Char) :=
  (["不少于", "不高于", "不多于", "不大于"] ++
    (["不到", "不足", "低于", "少于"].flatMap fun first =>
      ["超过", "高于", "多于", "大于", "至少", "最少"].map (first ++ ·)) ++
    (["超过", "高于", "多于", "大于", "至少", "最少"].flatMap fun first =>
      ["小于", "至多", "最多"].map (first ++ ·))).map (·.toList)

/-- The words of the table that have a direction come before those that have none. -/
def directedPrefixes : List (List Char × Comparator) := comparatorPrefixes.take 14

theorem foundDirection_eq (window : List Char) :
    foundDirection window = (directedPrefixes.find? fun entry => entry.1 <:+: window).bind (·.2.direction) := by
  have hsplit : comparatorPrefixes = directedPrefixes ++ comparatorPrefixes.drop 14 := (List.take_append_drop 14 _).symm
  have hrest : ∀ entry ∈ comparatorPrefixes.drop 14, entry.2.direction = none := by
    have hall : ((comparatorPrefixes.drop 14).all fun entry => entry.2.direction = none) = true := by decide
    intro entry hentry
    exact of_decide_eq_true (List.all_eq_true.mp hall entry hentry)
  rw [foundDirection, foundWord, hsplit, List.find?_append]
  cases directedPrefixes.find? fun entry => entry.1 <:+: window with
  | some entry => rfl
  | none =>
    cases hfound : (comparatorPrefixes.drop 14).find? fun entry => entry.1 <:+: window with
    | none => simp
    | some entry => simpa [hfound] using hrest entry (List.mem_of_find?_eq_some hfound)

/-- The first character of a window matters if a word starts there. -/
theorem foundDirection_cons (c : Char) (window : List Char) : foundDirection (c :: window) = foundDirection window ∨
    ∃ entry ∈ directedPrefixes, entry.1 <+: c :: window := by
  by_cases hstart : ∃ entry ∈ directedPrefixes, entry.1 <+: c :: window
  · exact .inr hstart
  · left
    rw [foundDirection_eq, foundDirection_eq]
    congr 1
    refine List.find?_congr fun entry hentry => ?_
    rw [decide_eq_decide, List.infix_cons_iff]
    exact or_iff_right fun hprefix => hstart ⟨entry, hentry, hprefix⟩

/-- The finding goes against what the text says. -/
def opposed (window : List Char) : Bool :=
  (directionBefore window).any fun direction => foundDirection window = some direction.opposite

def misleads (window : List Char) : Bool := misleadingWords.any (· <:+ window)

theorem directed_length : ∀ entry ∈ directedPrefixes, 2 ≤ entry.1.length := by
  have hall : (directedPrefixes.all fun entry => 2 ≤ entry.1.length) = true := by decide
  intro entry hentry
  exact of_decide_eq_true (List.all_eq_true.mp hall entry hentry)

theorem comparison_length : ∀ word ∈ comparisonWords, 2 ≤ word.1.length ∧ word.1.length ≤ 3 := by
  have hall : (comparisonWords.all fun word => 2 ≤ word.1.length ∧ word.1.length ≤ 3) = true := by decide
  intro word hword
  exact of_decide_eq_true (List.all_eq_true.mp hall word hword)

/-- The windows in which a word of the table comes first and a comparison word last, with nothing else. -/
theorem opposed_overlaps : (comparisonWords.all fun word => directedPrefixes.all fun entry => [1, 2].all fun k =>
    !(entry.1.drop k <+: word.1 && k + word.1.length ≤ 4) || !opposed (entry.1.take k ++ word.1) ||
      misleads (entry.1.take k ++ word.1)) = true := by
  decide

theorem opposed_words : (comparisonWords.all fun word => !opposed word.1 || misleads word.1) = true := by
  decide

theorem misleads_cons {c : Char} {window : List Char} (h : misleads window = true) : misleads (c :: window) = true := by
  obtain ⟨word, hword, hsuffix⟩ := List.any_eq_true.mp h
  exact List.any_eq_true.mpr ⟨word, hword, decide_eq_true ((of_decide_eq_true hsuffix).trans (List.suffix_cons c _))⟩

theorem opposed_of {window : List Char} {word : List Char × Direction}
    (hword : comparisonWords.find? (fun entry => entry.1 <:+ window) = some word)
    (hfound : foundDirection window = some word.2.opposite) : opposed window = true := by
  rw [opposed, directionBefore, hword]
  exact decide_eq_true hfound

theorem misleads_of_opposed {first : List Char} {word : List Char × Direction} (hlength : (first ++ word.1).length ≤ 4)
    (hword : comparisonWords.find? (fun entry => entry.1 <:+ first ++ word.1) = some word)
    (hfound : foundDirection (first ++ word.1) = some word.2.opposite) : misleads (first ++ word.1) = true := by
  have hmem : word ∈ comparisonWords := List.mem_of_find?_eq_some hword
  have hbounds := comparison_length word hmem
  induction first with
  | nil =>
    have hcheck := List.all_eq_true.mp opposed_words word hmem
    rw [List.nil_append] at hword hfound ⊢
    rwa [opposed_of hword hfound, Bool.not_true, Bool.false_or] at hcheck
  | cons c first ih =>
    have hsize : first.length + 1 + word.1.length ≤ 4 := by
      rw [List.length_append, List.length_cons] at hlength
      exact hlength
    rw [List.cons_append] at hword hfound ⊢
    rcases foundDirection_cons c (first ++ word.1) with hsame | ⟨entry, hentry, hprefix⟩
    · refine misleads_cons (ih (by rw [List.length_append]; omega) ?_ (hsame ▸ hfound))
      obtain ⟨-, earlier, later, hsplit, hnone⟩ := List.find?_eq_some_iff_append.mp hword
      refine List.find?_eq_some_iff_append.mpr ⟨decide_eq_true (List.suffix_append _ _), earlier, later, hsplit, ?_⟩
      intro other hother
      have hnot := hnone other hother
      rw [Bool.not_eq_true', decide_eq_false_iff_not] at hnot ⊢
      exact fun hsuffix => hnot (hsuffix.trans (List.suffix_cons c _))
    · have hlong := directed_length entry hentry
      have hoverlap := prefix_append_cases (c :: first) hprefix (by rw [List.length_cons]; omega)
      have hk : first.length + 1 ∈ [1, 2] := by
        have hsmall : first.length = 0 ∨ first.length = 1 := by omega
        rcases hsmall with h | h <;> simp [h]
      have hcheck := List.all_eq_true.mp (List.all_eq_true.mp (List.all_eq_true.mp opposed_overlaps word hmem) entry hentry)
        _ hk
      rw [List.length_cons] at hoverlap
      rw [← hoverlap.1, decide_eq_true hoverlap.2, decide_eq_true hsize, List.cons_append, opposed_of hword hfound]
        at hcheck
      simpa using hcheck

theorem opposed_misleading : (misleadingWords.all fun word => opposed word && 3 ≤ word.length &&
    (4 ≤ word.length || directedPrefixes.all fun entry => !(entry.1.drop 1 <+: word))) = true := by
  decide

theorem opposed_of_misleads {window : List Char} (hlength : window.length ≤ 4) (h : misleads window = true) :
    opposed window = true := by
  obtain ⟨word, hword, hsuffix⟩ := List.any_eq_true.mp h
  have hcheck := List.all_eq_true.mp opposed_misleading word hword
  simp only [Bool.and_eq_true, Bool.or_eq_true, decide_eq_true_eq] at hcheck
  obtain ⟨⟨hopposed, hlong⟩, hfree⟩ := hcheck
  obtain ⟨first, rfl⟩ := of_decide_eq_true hsuffix
  cases first with
  | nil => exact hopposed
  | cons c first =>
    rw [List.length_append, List.length_cons] at hlength
    obtain rfl : first = [] := List.length_eq_zero_iff.mp (by omega)
    have hthree : word.length = 3 := by
      rw [List.length_nil] at hlength
      omega
    have hnone := List.all_eq_true.mp (hfree.resolve_left (by omega))
    have hfound : foundDirection (c :: word) = foundDirection word := by
      refine (foundDirection_cons c word).resolve_right ?_
      rintro ⟨entry, hentry, hprefix⟩
      have hoverlap := prefix_append_cases [c] hprefix
        (show 1 ≤ entry.1.length from le_trans (by decide) (directed_length entry hentry))
      have hnot := hnone entry hentry
      rw [Bool.not_eq_true', decide_eq_false_iff_not] at hnot
      exact hnot hoverlap.2
    have hbefore : directionBefore (c :: word) = directionBefore word := by
      rw [directionBefore, directionBefore]
      congr 1
      refine List.find?_congr fun other hother => ?_
      rw [decide_eq_decide, List.suffix_cons_iff]
      refine or_iff_right fun heq => ?_
      have hshort := (comparison_length other hother).2
      rw [heq, List.length_cons, hthree] at hshort
      exact absurd hshort (by decide)
    rw [List.singleton_append, opposed, hfound, hbefore]
    exact hopposed

/-- Exactly the listed endings make the parser say the opposite. -/
theorem opposed_eq_misleads {window : List Char} (hlength : window.length ≤ 4) : opposed window = misleads window := by
  refine Bool.eq_iff_iff.mpr ⟨?_, opposed_of_misleads hlength⟩
  intro h
  rw [opposed, directionBefore, Option.any_map, Option.any_eq_true] at h
  obtain ⟨word, hword, hfound⟩ := h
  have hsuffix := List.find?_some hword
  rw [decide_eq_true_eq] at hsuffix
  obtain ⟨first, rfl⟩ := hsuffix
  exact misleads_of_opposed hlength hword (of_decide_eq_true hfound)

end Words

section Numbers
variable {tables : NumberTables} {text : List Char}

/-- Where the number before starts, the start of the text for the first number. -/
def previousStart (numbers : List Registered) (start : Nat) : Nat :=
  ((numbers.map (·.start)).filter (· < start)).foldr max 0

/-- A number does not carry the opposite of what the text before it says. -/
def FollowsWord (text : List Char) (r : Registered) : Prop :=
  ∀ direction, directionBefore (text.take r.start) = some direction →
    r.value.comparator.bind Comparator.direction ≠ some direction.opposite

/-- The comparison word stands after the number before. -/
def HasOwnWord (numbers : List Registered) (text : List Char) (r : Registered) : Prop :=
  ∀ comparator, r.value.comparator = some comparator → ∃ word, (word, comparator) ∈ comparatorPrefixes ∧
    word <:+: slice text (previousStart numbers r.start) r.start

/-- Within four characters there is a word of the table, and after the number before there is neither that word, nor
one that the table has before it, nor one for the same comparison. -/
def ReachesBack (numbers : List Registered) (text : List Char) (r : Registered) : Prop :=
  ∃ earlier entry later, comparatorPrefixes = earlier ++ entry :: later ∧
    entry.1 <:+: slice text (r.start - 4) r.start ∧
    ∀ other ∈ comparatorPrefixes, other ∈ earlier ++ [entry] ∨ other.2 = entry.2 →
      ¬ other.1 <:+: slice text (previousStart numbers r.start) r.start

theorem builder_comparator (tables : NumberTables) : ∀ family ∈ families tables, ∀ m : Match,
    (family.2 m).comparator = none := by
  intro family hfamily m
  have hpoint (x : Binary64) (suffix : List Char) : (cnPoint x suffix).comparator = none := by
    rw [cnPoint]
    split <;> rfl
  have hrange (x y : Binary64) (suffix : List Char) : (rangeValue x y suffix).comparator = none := by
    rw [rangeValue]
    split <;> rfl
  simp only [families, List.mem_cons, List.not_mem_nil, or_false] at hfamily
  rcases hfamily with rfl | rfl | rfl | rfl | rfl | rfl | rfl
  · rfl
  · exact hrange _ _ _
  · exact hrange _ _ _
  · rfl
  · rfl
  · exact hpoint _ _
  · rfl

theorem mem_orderedNumbers {r : Registered} : r ∈ orderedNumbers tables text ↔ r ∈ registered tables text :=
  List.mem_insertionSort _

theorem comparator_eq {r : Registered} (h : r ∈ orderedNumbers tables text) :
    r.value.comparator = (foundWord (slice text (r.start - 4) r.start)).map (·.2) := by
  obtain ⟨family, hfamily, m, hm, rfl⟩ := (registered_spec tables text).2 r (mem_orderedNumbers.mp h)
  have hnone := builder_comparator tables family hfamily m
  have hkeep (o : Option Comparator) : (o <|> none) = o := by cases o <;> rfl
  rw [register]
  dsimp only
  rw [hnone, hkeep]
  rfl

theorem start_lt_length {r : Registered} (h : r ∈ orderedNumbers tables text) : r.start < text.length := by
  obtain ⟨family, hfamily, m, hm, rfl⟩ := (registered_spec tables text).2 r (mem_orderedNumbers.mp h)
  obtain ⟨⟨rest, hrest⟩, -, hne⟩ := finditer_parts (families_consuming tables family hfamily) hm
  have hlength := congrArg List.length hrest
  rw [List.length_drop, List.length_append] at hlength
  have hpos := List.length_pos_iff.mpr hne
  change m.start < text.length
  omega

/-- A window is the end of the text before the number. -/
theorem slice_before {start : Nat} (h : start ≤ text.length) (n : Nat) :
    slice text (start - n) start = (text.take start).drop ((text.take start).length - n) := by
  rw [slice, List.length_take_of_le h]

theorem directionBefore_window (before : List Char) :
    directionBefore (before.drop (before.length - 4)) = directionBefore before := by
  rw [directionBefore, directionBefore]
  congr 1
  refine List.find?_congr fun word hword => ?_
  rw [decide_eq_decide]
  exact suffix_drop_iff ((comparison_length word hword).2.trans (by decide))

theorem misleads_window (before : List Char) : misleads (before.drop (before.length - 4)) = misleads before := by
  have hshort : (misleadingWords.all fun word => word.length ≤ 4) = true := by decide
  rw [misleads, misleads, Bool.eq_iff_iff, List.any_eq_true, List.any_eq_true]
  refine exists_congr fun word => and_congr_right fun hword => ?_
  rw [decide_eq_true_eq, decide_eq_true_eq]
  exact suffix_drop_iff (of_decide_eq_true (List.all_eq_true.mp hshort word hword))

theorem followsWord_iff {r : Registered} (h : r ∈ orderedNumbers tables text) :
    FollowsWord text r ↔ misleads (text.take r.start) = false := by
  have hwindow := slice_before (start_lt_length h).le 4
  have hlength : ((text.take r.start).drop ((text.take r.start).length - 4)).length ≤ 4 := by
    rw [List.length_drop]
    omega
  have hopposed := opposed_eq_misleads hlength
  rw [misleads_window, opposed, directionBefore_window, ← hwindow] at hopposed
  rw [← hopposed, FollowsWord, comparator_eq h, Option.any_eq_false]
  refine forall₂_congr fun direction _ => ?_
  rw [decide_eq_false_iff_not, foundDirection, Option.bind_map]
  rfl

/-- Two words without a common character do not share places. -/
theorem length_add_le_of_disjoint {first second window : List Char} (hfirst : first <:+: window)
    (hsecond : second <:+: window) (hdisjoint : ∀ c ∈ first, c ∉ second) : first.length + second.length ≤ window.length := by
  have hcount : first.countP (first.contains ·) = first.length := by
    rw [List.countP_eq_length]
    exact fun c hc => List.contains_iff_mem.mpr hc
  have hother : second.countP (fun c => decide ¬ first.contains c = true) = second.length := by
    rw [List.countP_eq_length]
    intro c hc
    rw [decide_eq_true_eq, List.contains_iff_mem]
    exact fun hmem => hdisjoint c hmem hc
  rw [← hcount, ← hother, List.length_eq_countP_add_countP (first.contains ·) (l := window)]
  exact Nat.add_le_add hfirst.sublist.countP_le hsecond.sublist.countP_le

/-- Two words for one comparison, with a word for another one between them, do not fit into a window. -/
theorem comparatorPrefixes_apart : ((comparatorPrefixes.sublistsLen 3).all fun words =>
    words.head?.all fun first => words[1]?.all fun middle => words[2]?.all fun last =>
      first.2 = middle.2 || first.2 ≠ last.2 ||
        (first.1.all (!last.1.contains ·) && 4 < first.1.length + last.1.length)) = true := by
  decide +kernel

theorem drop_infix_cases (before : List Char) (n m : Nat) :
    before.drop n <:+: before.drop m ∨ before.drop m <:+: before.drop n := by
  rcases Nat.le_total n m with h | h
  · obtain ⟨k, rfl⟩ := Nat.exists_eq_add_of_le h
    exact .inr (by rw [← List.drop_drop]; exact (List.drop_suffix _ _).isInfix)
  · obtain ⟨k, rfl⟩ := Nat.exists_eq_add_of_le h
    exact .inl (by rw [← List.drop_drop]; exact (List.drop_suffix _ _).isInfix)

/-- Of two words for one comparison in a window, the ones between them in the table are for that comparison too. -/
theorem between_same_comparison {window : List Char} (hlength : window.length ≤ 4) {earlier later : List (List Char × Comparator)}
    {first entry last : List Char × Comparator} (hsplit : comparatorPrefixes = earlier ++ entry :: later)
    (hfirst : first ∈ earlier) (hlast : last ∈ later) (hsame : last.2 = first.2) (hwindow : first.1 <:+: window)
    (hwindow' : last.1 <:+: window) : first.2 = entry.2 := by
  have hsublist : [first, entry, last].Sublist comparatorPrefixes := by
    rw [hsplit]
    exact (List.singleton_sublist.mpr hfirst).append ((List.singleton_sublist.mpr hlast).cons_cons entry)
  have hcheck := List.all_eq_true.mp comparatorPrefixes_apart _ (List.mem_sublistsLen.mpr ⟨hsublist, rfl⟩)
  simp only [List.head?_cons, Option.all_some, List.getElem?_cons_succ, List.getElem?_cons_zero, Bool.or_eq_true,
    Bool.and_eq_true, decide_eq_true_eq] at hcheck
  rcases hcheck with (heq | hne) | ⟨hdisjoint, hlong⟩
  · exact heq
  · exact absurd hsame.symm hne
  · have hsum := length_add_le_of_disjoint hwindow hwindow' fun c hc hmem => by
      have hnot := List.all_eq_true.mp hdisjoint c hc
      rw [List.contains_iff_mem.mpr hmem] at hnot
      cases hnot
    omega

theorem hasOwnWord_iff {r : Registered} (h : r ∈ orderedNumbers tables text) (numbers : List Registered) :
    HasOwnWord numbers text r ↔ ¬ ReachesBack numbers text r := by
  have hlength : (slice text (r.start - 4) r.start).length ≤ 4 := by
    rw [slice, List.length_drop, List.length_take]
    omega
  have hcases := drop_infix_cases (text.take r.start) (r.start - 4) (previousStart numbers r.start)
  change slice text (r.start - 4) r.start <:+: slice text (previousStart numbers r.start) r.start ∨
    slice text (previousStart numbers r.start) r.start <:+: slice text (r.start - 4) r.start at hcases
  rw [HasOwnWord, comparator_eq h]
  constructor
  · rintro hown ⟨earlier, entry, later, hsplit, hentry, hnone⟩
    have hmem : entry ∈ comparatorPrefixes := hsplit ▸ List.mem_append_right _ List.mem_cons_self
    obtain ⟨first, hfound, hfirst⟩ : ∃ first, foundWord (slice text (r.start - 4) r.start) = some first ∧
        first ∈ earlier ++ [entry] := by
      have hhere : (entry :: later).find? (fun entry => entry.1 <:+: slice text (r.start - 4) r.start) = some entry :=
        List.find?_cons_of_pos (by rw [decide_eq_true_eq]; exact hentry)
      rw [foundWord, hsplit, List.find?_append, hhere]
      cases hearlier : earlier.find? fun entry => entry.1 <:+: slice text (r.start - 4) r.start with
      | none => exact ⟨entry, rfl, List.mem_append_right _ (List.mem_singleton_self _)⟩
      | some first => exact ⟨first, rfl, List.mem_append_left _ (List.mem_of_find?_eq_some hearlier)⟩
    obtain ⟨word, hword, hgap⟩ := hown first.2 (by rw [hfound]; rfl)
    have hlate : (word, first.2) ∉ earlier ++ [entry] := fun hmem => hnone _ hword (.inl hmem) hgap
    have hother : first.2 ≠ entry.2 := fun heq => hnone _ hword (.inr heq) hgap
    rcases hcases with hshort | hlong
    · exact hnone entry hmem (.inr rfl) (hentry.trans hshort)
    · have hlater : (word, first.2) ∈ later := by
        rw [hsplit] at hword
        rcases List.mem_append.mp hword with hearlier | hrest
        · exact absurd (List.mem_append_left _ hearlier) hlate
        · rcases List.mem_cons.mp hrest with heq | hlater
          · exact absurd (List.mem_append_right _ (List.mem_singleton.mpr heq)) hlate
          · exact hlater
      have hearlier : first ∈ earlier := by
        rcases List.mem_append.mp hfirst with hearlier | heq
        · exact hearlier
        · exact absurd (congrArg Prod.snd (List.mem_singleton.mp heq)) hother
      have hin := List.find?_some hfound
      rw [decide_eq_true_eq] at hin
      exact hother (between_same_comparison hlength hsplit hearlier hlater rfl hin (hgap.trans hlong))
  · intro hnot comparator hcomparator
    obtain ⟨first, hfound, rfl⟩ := Option.map_eq_some_iff.mp hcomparator
    have hmem := List.mem_of_find?_eq_some hfound
    obtain ⟨hin, earlier, later, hsplit, hearlier⟩ := List.find?_eq_some_iff_append.mp hfound
    rw [decide_eq_true_eq] at hin
    by_contra hno
    refine hnot ⟨earlier, first, later, hsplit, hin, ?_⟩
    intro other hother hcase hgap
    rcases hcase with hbefore | hsame
    · rcases List.mem_append.mp hbefore with hmemEarlier | heq
      · rcases hcases with hshort | hlong
        · exact hno ⟨first.1, hmem, hin.trans hshort⟩
        · have hnotIn := hearlier other hmemEarlier
          rw [Bool.not_eq_true', decide_eq_false_iff_not] at hnotIn
          exact hnotIn (hgap.trans hlong)
      · rw [List.mem_singleton.mp heq] at hgap
        exact hno ⟨first.1, hmem, hgap⟩
    · exact hno ⟨other.1, hsame ▸ hother, hgap⟩

/-- The comparison words reach the right numbers in the right direction exactly if no number comes after a misleading
ending, or after a word that stands before the number before. -/
theorem comparators_faithful (tables : NumberTables) (text : List Char) :
    (∀ r ∈ orderedNumbers tables text, FollowsWord text r ∧ HasOwnWord (orderedNumbers tables text) text r) ↔
      ∀ r ∈ orderedNumbers tables text, misleads (text.take r.start) = false ∧
        ¬ ReachesBack (orderedNumbers tables text) text r :=
  forall₂_congr fun _ h => and_congr (followsWord_iff h) (hasOwnWord_iff h _)

/-- 不少于5 is read as less than 5, and 低于 before 5 reaches 10 in 低于5，10元. -/
theorem comparators_reversed :
    (parseFinancialNumerics plainNumberTables "不少于5".toList).map (·.comparator) = [some .lt] ∧
    (parseFinancialNumerics plainNumberTables "低于5，10元".toList).map (·.comparator) = [some .lt, some .lt] ∧
    ¬ ∀ (tables : NumberTables) (text : List Char), ∀ r ∈ orderedNumbers tables text,
      FollowsWord text r ∧ HasOwnWord (orderedNumbers tables text) text r := by
  have hread : (parseFinancialNumerics plainNumberTables "不少于5".toList).map (·.comparator) = [some .lt] := by
    decide
  refine ⟨hread, by decide, ?_⟩
  intro hall
  have hhead : (orderedNumbers plainNumberTables "不少于5".toList).headD ⟨0, 0, {}⟩ ∈
      orderedNumbers plainNumberTables "不少于5".toList := by decide +kernel
  exact (hall plainNumberTables _ _ hhead).1 .above (by decide) (by decide)

end Numbers
end StockContent.Numeric
