import Mathlib.Data.List.Forall2
import StockContent.Storage.StableSort
import StockContent.Text.Regex

/-! Matches with their groups: an expression is a sequence of parts, and a match keeps where it starts and the text
of each part. -/
namespace StockContent.Text
namespace Regex

section Reading

/-- The expression reads a text somewhere. -/
def ReadsText (r : Regex) (taken : List Char) : Prop := ∃ p q : Place, q ∈ r.ends p ∧ p.2 = taken ++ q.2

/-- Every character that the expression reads satisfies `P`. -/
def Within (P : Char → Prop) : Regex → Prop
  | .one p => ∀ c, p c = true → P c
  | .seq r s => r.Within P ∧ s.Within P
  | .alt r s => r.Within P ∧ s.Within P
  | .rep r _ _ => r.Within P
  | .empty | .notAfter _ | .notBefore _ => True

variable {P : Char → Prop} {ends : Place → List Place}

theorem repEnds_within (hends : ∀ p q : Place, q ∈ ends p → ∃ taken, p.2 = taken ++ q.2 ∧ ∀ c ∈ taken, P c)
    {least rounds : Nat} {p q : Place} (h : q ∈ repEnds ends least rounds p) :
    ∃ taken, p.2 = taken ++ q.2 ∧ ∀ c ∈ taken, P c := by
  have hstay : q ∈ (if least = 0 then [p] else []) → ∃ taken, p.2 = taken ++ q.2 ∧ ∀ c ∈ taken, P c := by
    intro hq
    split at hq
    · rw [List.mem_singleton.mp hq]
      exact ⟨[], rfl, by simp⟩
    · cases hq
  induction rounds generalizing least p with
  | zero => exact hstay h
  | succ rounds ih =>
    rw [repEnds, List.mem_append] at h
    rcases h with hround | hq
    · obtain ⟨next, hnext, hq⟩ := List.mem_flatMap.mp hround
      split at hq
      case isFalse => cases hq
      case isTrue =>
        obtain ⟨taken, htaken, hall⟩ := hends p next hnext
        have hrest : ∃ taken', next.2 = taken' ++ q.2 ∧ ∀ c ∈ taken', P c := by
          refine ih hq ?_
          intro hzero
          split at hzero
          · rw [List.mem_singleton.mp hzero]
            exact ⟨[], rfl, by simp⟩
          · cases hzero
        obtain ⟨taken', htaken', hall'⟩ := hrest
        refine ⟨taken ++ taken', by rw [htaken, htaken', List.append_assoc], ?_⟩
        intro c hc
        exact (List.mem_append.mp hc).elim (hall c) (hall' c)
    · exact hstay hq

/-- What a search has read is a piece of the text, in the characters of the expression. -/
theorem ends_within {r : Regex} (hr : r.Within P) {p q : Place} (h : q ∈ r.ends p) :
    ∃ taken, p.2 = taken ++ q.2 ∧ ∀ c ∈ taken, P c := by
  induction r generalizing p q with
  | empty =>
    rw [List.mem_singleton.mp h]
    exact ⟨[], rfl, by simp⟩
  | one test =>
    obtain ⟨before, text⟩ := p
    cases text with
    | nil => cases h
    | cons c rest =>
      rw [ends] at h
      split at h
      case isTrue htest =>
        rw [List.mem_singleton.mp h]
        exact ⟨[c], rfl, by simpa using hr c htest⟩
      case isFalse => cases h
  | seq r s ihr ihs =>
    obtain ⟨next, hnext, hq⟩ := List.mem_flatMap.mp h
    obtain ⟨taken, htaken, hall⟩ := ihr hr.1 hnext
    obtain ⟨taken', htaken', hall'⟩ := ihs hr.2 hq
    refine ⟨taken ++ taken', by rw [htaken, htaken', List.append_assoc], ?_⟩
    intro c hc
    exact (List.mem_append.mp hc).elim (hall c) (hall' c)
  | alt r s ihr ihs => exact (List.mem_append.mp h).elim (ihr hr.1) (ihs hr.2)
  | rep r least most ih => exact repEnds_within (fun p q hq => ih hr hq) h
  | notAfter test =>
    rw [ends] at h
    split at h
    · cases h
    · rw [List.mem_singleton.mp h]
      exact ⟨[], rfl, by simp⟩
  | notBefore test =>
    rw [ends] at h
    split at h
    · cases h
    · rw [List.mem_singleton.mp h]
      exact ⟨[], rfl, by simp⟩

theorem within_true (r : Regex) : r.Within fun _ => True := by
  induction r with
  | one test => exact fun _ _ => trivial
  | seq r s ihr ihs => exact ⟨ihr, ihs⟩
  | alt r s ihr ihs => exact ⟨ihr, ihs⟩
  | rep r least most ih => exact ih
  | empty => trivial
  | notAfter test => trivial
  | notBefore test => trivial

theorem ReadsText.within {r : Regex} {taken : List Char} (h : r.ReadsText taken) (hr : r.Within P) :
    ∀ c ∈ taken, P c := by
  obtain ⟨p, q, hq, htext⟩ := h
  obtain ⟨taken', htext', hall⟩ := ends_within hr hq
  obtain rfl : taken = taken' := List.append_cancel_right (htext.symm.trans htext')
  exact hall

/-- At least one round has been read. -/
theorem ReadsText.ne_nil {r : Regex} {taken : List Char} (h : (Regex.some r).ReadsText taken) : taken ≠ [] := by
  obtain ⟨p, q, hq, htext⟩ := h
  rintro rfl
  have hsame : q.2 = p.2 := htext.symm
  have hnone : ∀ least : Nat, 0 < least → q ∉ repEnds r.ends least p.2.length p := by
    intro least hleast
    cases hlength : p.2.length with
    | zero =>
      rw [repEnds, if_neg (Nat.pos_iff_ne_zero.mp hleast)]
      exact List.not_mem_nil
    | succ rounds =>
      rw [repEnds, if_neg (Nat.pos_iff_ne_zero.mp hleast), List.append_nil]
      intro hmem
      obtain ⟨next, hnext, hq⟩ := List.mem_flatMap.mp hmem
      split at hq
      case isFalse => cases hq
      case isTrue hshort =>
        obtain ⟨taken, htaken, -⟩ := repEnds_within (P := fun _ => True)
          (fun p q hq => ends_within (within_true r) hq) hq
        have hlong := congrArg List.length htaken
        rw [List.length_append, hsame] at hlong
        omega
  exact hnone 1 Nat.one_pos hq

theorem readsText_one {test : Char → Bool} {taken : List Char} (h : (Regex.one test).ReadsText taken) :
    ∃ c, taken = [c] ∧ test c = true := by
  obtain ⟨⟨before, text⟩, q, hq, htext⟩ := h
  cases text with
  | nil => cases hq
  | cons c rest =>
    rw [ends] at hq
    split at hq
    case isFalse => cases hq
    case isTrue htest =>
      rw [List.mem_singleton.mp hq] at htext
      exact ⟨c, List.append_cancel_right htext.symm, htest⟩

theorem readsText_seq {r s : Regex} {taken : List Char} (h : (Regex.seq r s).ReadsText taken) :
    ∃ first second, taken = first ++ second ∧ r.ReadsText first ∧ s.ReadsText second := by
  obtain ⟨p, q, hq, htext⟩ := h
  obtain ⟨next, hnext, hrest⟩ := List.mem_flatMap.mp hq
  obtain ⟨first, hfirst, -⟩ := ends_within (within_true r) hnext
  obtain ⟨second, hsecond, -⟩ := ends_within (within_true s) hrest
  refine ⟨first, second, ?_, ⟨p, next, hnext, hfirst⟩, ⟨next, q, hrest, hsecond⟩⟩
  rw [hsecond, ← List.append_assoc] at hfirst
  exact List.append_cancel_right (htext.symm.trans hfirst)

theorem readsText_some_oneOf {chars : String} {taken : List Char} (h : (Regex.some (.oneOf chars)).ReadsText taken) :
    taken ≠ [] ∧ ∀ c ∈ taken, c ∈ chars.toList :=
  ⟨h.ne_nil, h.within fun _ hc => List.contains_iff_mem.mp hc⟩

/-- Each match that is found has been read, and stands in the text. -/
theorem findAllFrom_reads {r : Regex} {before : Option Char} {skip : Nat} {text : List Char} {found : String}
    (h : found ∈ r.findAllFrom before skip text) : found.toList <:+: text ∧ r.ReadsText found.toList := by
  induction text generalizing before skip with
  | nil => cases skip <;> cases h
  | cons c rest ih =>
    have hlater {before : Option Char} {skip : Nat} (h : found ∈ r.findAllFrom before skip rest) :
        found.toList <:+: c :: rest ∧ r.ReadsText found.toList := by
      obtain ⟨hin, hread⟩ := ih h
      exact ⟨hin.trans (List.suffix_cons c rest).isInfix, hread⟩
    cases skip with
    | succ skip => exact hlater h
    | zero =>
      rw [findAllFrom] at h
      split at h
      · exact hlater h
      · rename_i last after hhead
        rcases List.mem_cons.mp h with rfl | hrest
        · have hend := List.mem_of_head? hhead
          obtain ⟨taken, htaken, -⟩ := ends_within (within_true r) hend
          have htext : c :: rest = taken ++ after := htaken
          have hlength : rest.length + 1 = taken.length + after.length := by
            rw [← List.length_cons (a := c), htext, List.length_append]
          have htake : (c :: rest).take (rest.length + 1 - after.length) = taken := by
            rw [hlength, Nat.add_sub_cancel, htext, List.take_left]
          rw [String.toList_ofList, htake]
          refine ⟨?_, (before, c :: rest), (last, after), hend, htaken⟩
          rw [htext]
          exact (List.prefix_append taken after).isInfix
        · exact hlater hrest

end Reading

section Groups

/-- What lies between two places of a text. -/
def between (p q : Place) : List Char := p.2.take (p.2.length - q.2.length)

theorem between_eq {p q : Place} {taken : List Char} (h : p.2 = taken ++ q.2) : between p q = taken := by
  rw [between, h, List.length_append, Nat.add_sub_cancel, List.take_left]

/-- The ways to read the parts one after another, with the text of each. -/
def groups : List Regex → Place → List (List (List Char) × Place)
  | [], place => [([], place)]
  | r :: rs, place => (r.ends place).flatMap fun next =>
    (groups rs next).map fun found => (between place next :: found.1, found.2)

theorem groups_parts {rs : List Regex} {p : Place} {found : List (List Char) × Place} (h : found ∈ groups rs p) :
    p.2 = found.1.flatten ++ found.2.2 ∧ List.Forall₂ ReadsText rs found.1 := by
  induction rs generalizing p found with
  | nil =>
    rw [List.mem_singleton.mp h]
    exact ⟨rfl, .nil⟩
  | cons r rs ih =>
    obtain ⟨next, hnext, hfound⟩ := List.mem_flatMap.mp h
    obtain ⟨tail, htail, rfl⟩ := List.mem_map.mp hfound
    obtain ⟨taken, htaken, -⟩ := ends_within (within_true r) hnext
    obtain ⟨htext, hparts⟩ := ih htail
    dsimp only
    rw [between_eq htaken]
    refine ⟨by rw [htaken, htext, List.flatten_cons, List.append_assoc], .cons ⟨p, next, hnext, htaken⟩ hparts⟩

end Groups
end Regex

/-- Where a match starts, and the texts of its parts. -/
structure Match where
  start : Nat
  parts : List (List Char)
  deriving DecidableEq, Repr

namespace Match

def text (m : Match) : List Char := m.parts.flatten

def stop (m : Match) : Nat := m.start + m.text.length

/-- The text of a part, empty if it took no part in the match. -/
def part (m : Match) (i : Nat) : List Char := m.parts.getD i []

end Match

section Finditer
def placeAt (text : List Char) (i : Nat) : Place := ((text.take i).getLast?, text.drop i)

/-- The first `skip` characters belong to the last match. -/
def finditerFrom (rs : List Regex) : Nat → Option Char → Nat → List Char → List Match
  | _, _, _, [] => []
  | i, _, skip + 1, c :: rest => finditerFrom rs (i + 1) (some c) skip rest
  | i, before, 0, c :: rest =>
    match (Regex.groups rs (before, c :: rest)).head? with
    | none => finditerFrom rs (i + 1) (some c) 0 rest
    | some (parts, _) => ⟨i, parts⟩ :: finditerFrom rs (i + 1) (some c) (parts.flatten.length - 1) rest

/-- Matches from left to right that do not overlap, for expressions that match no empty text. -/
def finditer (rs : List Regex) (text : List Char) : List Match := finditerFrom rs 0 none 0 text

/-- The parts read no empty text. -/
def Consuming (rs : List Regex) : Prop := ∀ p found, found ∈ Regex.groups rs p → found.1.flatten ≠ []

theorem consuming_of_part {rs : List Regex} {r : Regex} (hr : r ∈ rs) (hne : ∀ taken, r.ReadsText taken → taken ≠ []) :
    Consuming rs := by
  intro p found hfound
  have hparts := (Regex.groups_parts hfound).2
  generalize found.1 = parts at hparts ⊢
  clear hfound
  induction hparts with
  | nil => cases hr
  | @cons first taken rest parts hfirst hrest ih =>
    intro hnil
    obtain ⟨htaken, hrestNil⟩ := List.append_eq_nil_iff.mp hnil
    rcases List.mem_cons.mp hr with rfl | hr
    · exact hne taken hfirst htaken
    · exact ih hr hrestNil

variable {rs : List Regex}

theorem placeAt_append (before rest : List Char) : placeAt (before ++ rest) before.length = (before.getLast?, rest) := by
  rw [placeAt, List.take_left, List.drop_left]

theorem finditerFrom_spec (hrs : Consuming rs) (before rest : List Char) (skip : Nat) :
    (∀ m ∈ finditerFrom rs before.length before.getLast? skip rest, before.length + skip ≤ m.start ∧
      ∃ after, (Regex.groups rs (placeAt (before ++ rest) m.start)).head? = some (m.parts, after)) ∧
    (finditerFrom rs before.length before.getLast? skip rest).Pairwise (fun m m' => m.stop ≤ m'.start) ∧
    ∀ i, before.length + skip ≤ i → i < (before ++ rest).length → Regex.groups rs (placeAt (before ++ rest) i) ≠ [] →
      ∃ m ∈ finditerFrom rs before.length before.getLast? skip rest, m.start ≤ i ∧ i < m.stop := by
  induction rest generalizing before skip with
  | nil =>
    refine ⟨by simp [finditerFrom], by simp [finditerFrom], ?_⟩
    intro i hi hlt
    rw [List.append_nil] at hlt
    omega
  | cons c rest ih =>
    have hlast : (before ++ [c]).getLast? = some c := List.getLast?_concat
    have hlength : (before ++ [c]).length = before.length + 1 := List.length_append
    have happend : before ++ [c] ++ rest = before ++ c :: rest := by rw [List.append_assoc, List.singleton_append]
    cases skip with
    | succ skip =>
      have hrest := ih (before ++ [c]) skip
      rw [hlast, hlength, happend] at hrest
      obtain ⟨hmem, hsorted, hcover⟩ := hrest
      rw [finditerFrom]
      refine ⟨?_, hsorted, ?_⟩
      · intro m hm
        obtain ⟨hstart, hgroups⟩ := hmem m hm
        exact ⟨by omega, hgroups⟩
      · intro i hi
        exact hcover i (by omega)
    | zero =>
      rw [finditerFrom]
      split
      case h_1 hnone =>
        have hrest := ih (before ++ [c]) 0
        rw [hlast, hlength, happend] at hrest
        obtain ⟨hmem, hsorted, hcover⟩ := hrest
        refine ⟨?_, hsorted, ?_⟩
        · intro m hm
          obtain ⟨hstart, hgroups⟩ := hmem m hm
          exact ⟨by omega, hgroups⟩
        · intro i hi hlt hgroups
          rcases Nat.eq_or_lt_of_le hi with heq | hgt
          · rw [← heq, Nat.add_zero, placeAt_append] at hgroups
            exact absurd (List.head?_eq_none_iff.mp hnone) hgroups
          · exact hcover i (by omega) hlt hgroups
      case h_2 parts after hhead =>
        have hrest := ih (before ++ [c]) (parts.flatten.length - 1)
        rw [hlast, hlength, happend] at hrest
        obtain ⟨hmem, hsorted, hcover⟩ := hrest
        have hsome : parts.flatten ≠ [] := hrs _ _ (List.mem_of_head? hhead)
        have hpos : 0 < parts.flatten.length := List.length_pos_iff.mpr hsome
        have hstop : (Match.mk before.length parts).stop = before.length + parts.flatten.length := rfl
        refine ⟨?_, List.pairwise_cons.mpr ⟨?_, hsorted⟩, ?_⟩
        · intro m hm
          rcases List.mem_cons.mp hm with rfl | hm
          · rw [placeAt_append]
            exact ⟨Nat.le_refl _, after, hhead⟩
          · obtain ⟨hstart, hgroups⟩ := hmem m hm
            exact ⟨by omega, hgroups⟩
        · intro m hm
          have hstart := (hmem m hm).1
          omega
        · intro i hi hlt hgroups
          by_cases hinside : i < before.length + parts.flatten.length
          · exact ⟨_, List.mem_cons_self, hi, by omega⟩
          · obtain ⟨m, hm, hcovers⟩ := hcover i (by omega) hlt hgroups
            exact ⟨m, List.mem_cons_of_mem _ hm, hcovers⟩

/-- A match is the first way to read the parts at its start. -/
theorem mem_finditer (hrs : Consuming rs) {text : List Char} {m : Match} (h : m ∈ finditer rs text) :
    ∃ after, (Regex.groups rs (placeAt text m.start)).head? = some (m.parts, after) :=
  ((finditerFrom_spec hrs [] text 0).1 m h).2

theorem pairwise_finditer (hrs : Consuming rs) (text : List Char) :
    (finditer rs text).Pairwise fun m m' => m.stop ≤ m'.start :=
  (finditerFrom_spec hrs [] text 0).2.1

/-- Where the parts can be read, there is a match or a match is going on. -/
theorem covered_by_finditer (hrs : Consuming rs) {text : List Char} {i : Nat} (hi : i < text.length)
    (h : Regex.groups rs (placeAt text i) ≠ []) : ∃ m ∈ finditer rs text, m.start ≤ i ∧ i < m.stop :=
  (finditerFrom_spec hrs [] text 0).2.2 i (by simp) hi h

/-- The text of a match stands in the text, and each part has been read. -/
theorem finditer_parts (hrs : Consuming rs) {text : List Char} {m : Match} (h : m ∈ finditer rs text) :
    (∃ rest, text.drop m.start = m.text ++ rest) ∧ List.Forall₂ Regex.ReadsText rs m.parts ∧ m.text ≠ [] := by
  obtain ⟨after, hhead⟩ := mem_finditer hrs h
  have hmem := List.mem_of_head? hhead
  obtain ⟨htext, hparts⟩ := Regex.groups_parts hmem
  exact ⟨⟨after.2, htext⟩, hparts, hrs _ _ hmem⟩

/-- Matches of one search that overlap are the same. -/
theorem finditer_eq_of_overlap (hrs : Consuming rs) {text : List Char} {m m' : Match} (h : m ∈ finditer rs text)
    (h' : m' ∈ finditer rs text) (hlt : m.start < m'.stop) (hlt' : m'.start < m.stop) : m = m' := by
  by_contra hne
  rcases Storage.pairwise_either (pairwise_finditer hrs text) h h' hne with hle | hle <;> omega

end Finditer

section Runs

/-- A repetition can stop after every run of its characters. -/
theorem mem_repEnds_run {test : Char → Bool} {run : List Char} (hrun : ∀ c ∈ run, test c = true) (least rounds : Nat)
    (hleast : least ≤ run.length) (hrounds : run.length ≤ rounds) (before : Option Char) (rest : List Char) :
    ∃ last, (last, rest) ∈ repEnds (Regex.one test).ends least rounds (before, run ++ rest) := by
  induction run generalizing least rounds before with
  | nil =>
    obtain rfl : least = 0 := Nat.le_zero.mp hleast
    refine ⟨before, ?_⟩
    cases rounds with
    | zero => exact List.mem_singleton_self _
    | succ rounds => exact List.mem_append_right _ (List.mem_singleton_self _)
  | cons c run ih =>
    cases rounds with
    | zero => exact absurd hrounds (Nat.not_succ_le_zero _)
    | succ rounds =>
      obtain ⟨last, hlast⟩ := ih (fun c hc => hrun c (List.mem_cons_of_mem _ hc)) (least - 1) rounds
        (by rw [List.length_cons] at hleast; omega) (Nat.le_of_succ_le_succ hrounds) (some c)
      refine ⟨last, List.mem_append_left _ (List.mem_flatMap.mpr ⟨(some c, run ++ rest), ?_, ?_⟩)⟩
      · rw [List.cons_append, Regex.ends, if_pos (hrun c List.mem_cons_self)]
        exact List.mem_singleton_self _
      · have hshort : (run ++ rest).length < (c :: run ++ rest).length := Nat.lt_succ_self _
        rw [if_pos hshort]
        exact hlast

theorem groups_run_ne_nil {test test' : Char → Bool} {run : List Char} {c : Char} (hne : run ≠ [])
    (hrun : ∀ c ∈ run, test c = true) (hc : test' c = true) (before : Option Char) (rest : List Char) :
    Regex.groups [.some (.one test), .one test'] (before, run ++ c :: rest) ≠ [] := by
  obtain ⟨last, hlast⟩ := mem_repEnds_run hrun 1 (run ++ c :: rest).length
    (List.length_pos_iff.mpr hne) (by rw [List.length_append]; omega) before (c :: rest)
  have hnext : (some c, rest) ∈ (Regex.one test').ends (last, c :: rest) := by
    rw [Regex.ends, if_pos hc]
    exact List.mem_singleton_self _
  have htail : Regex.groups [.one test'] (last, c :: rest) ≠ [] :=
    List.ne_nil_of_mem (List.mem_flatMap.mpr ⟨_, hnext, List.mem_map_of_mem (List.mem_singleton_self _)⟩)
  obtain ⟨found, hfound⟩ := List.exists_mem_of_ne_nil _ htail
  exact List.ne_nil_of_mem (List.mem_flatMap.mpr ⟨(last, c :: rest), hlast, List.mem_map_of_mem hfound⟩)

end Runs
end StockContent.Text

/-! Replacing in texts: plain texts, and matches of an expression by what a template stands for. -/
namespace StockContent.Text
namespace Regex

def literal (text : List Char) : Regex := text.foldr (fun c r => .seq (.char c) r) .empty
def words (texts : List String) : Regex := choice (texts.map word)
def noneOf (chars : String) : Regex := .one fun c => !chars.toList.contains c

end Regex

/-- `text.replace(old, new)` for an `old` that is not empty. -/
def replace (old new text : List Char) : List Char := (Regex.literal old).sub (fun _ => new) text

/-- A template that the expression engine does not accept. -/
structure TemplateError where
  message : String
  deriving DecidableEq

/-- What the engine makes of a template with backslashes in it, given the text of a match. -/
abbrev Escapes := List Char → Except TemplateError (List Char → List Char)

/-- A template without a backslash stands for itself. -/
def template (escapes : Escapes) (text : List Char) : Except TemplateError (List Char → List Char) :=
  if text.contains '\\' then escapes text else .ok fun _ => text

/-- `re.sub(expression, template, text)`: the template is read even where nothing matches. -/
def subTemplate (escapes : Escapes) (r : Regex) (written text : List Char) : Except TemplateError (List Char) :=
  (template escapes written).map fun expand => r.sub expand text

/-- The texts between the characters `stop`, each with the one that ends it. -/
def splitAfter (stop : Char → Bool) : List Char → List (List Char)
  | [] => [[]]
  | c :: rest =>
    if stop c then [c] :: splitAfter stop rest
    else (c :: (splitAfter stop rest).headD []) :: (splitAfter stop rest).tail

end StockContent.Text
