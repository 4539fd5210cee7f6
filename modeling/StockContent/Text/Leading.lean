import StockContent.Text.Matches
import StockContent.Text.Strip

/-! What an expression reads at the start of a text, taken away until nothing is left to take. -/
namespace StockContent.Text
namespace Regex

section Leading

/-- What is left of a text after the match at its start. -/
def after (r : Regex) (text : List Char) : Option (List Char) := (r.ends (none, text)).head?.map Prod.snd

/-- The match at the start of a text, replaced by nothing. -/
def dropLeading (r : Regex) (text : List Char) : List Char := (r.after text).getD text

/-- One expression after the other. -/
def dropEach (rs : List Regex) (text : List Char) : List Char := rs.foldl (fun text r => r.dropLeading text) text

/-- No match of the expression is empty. -/
def consumes : Regex → Bool
  | .one _ => true
  | .seq r s => r.consumes || s.consumes
  | .alt r s => r.consumes && s.consumes
  | .empty | .rep _ _ _ | .notAfter _ | .notBefore _ => false

variable {r s : Regex} {rs : List Regex} {p : Char → Bool} {text rest : List Char}

theorem ends_shorter (hr : r.consumes = true) {here next : Place} (h : next ∈ r.ends here) :
    next.2.length < here.2.length := by
  induction r generalizing here next with
  | one test =>
    obtain ⟨before, text⟩ := here
    cases text with
    | nil => cases h
    | cons c rest =>
      rw [ends] at h
      split at h
      case isTrue => simp [List.mem_singleton.mp h]
      case isFalse => cases h
  | seq r s ihr ihs =>
    obtain ⟨middle, hmiddle, hnext⟩ := List.mem_flatMap.mp h
    obtain ⟨taken, htaken, -⟩ := ends_within (within_true r) hmiddle
    obtain ⟨taken', htaken', -⟩ := ends_within (within_true s) hnext
    have hlengths : here.2.length = taken.length + middle.2.length := by rw [htaken, List.length_append]
    have hlengths' : middle.2.length = taken'.length + next.2.length := by rw [htaken', List.length_append]
    rcases Bool.or_eq_true_iff.mp hr with hr | hs
    · have hshort := ihr hr hmiddle
      omega
    · have hshort := ihs hs hnext
      omega
  | alt r s ihr ihs =>
    obtain ⟨hr, hs⟩ := Bool.and_eq_true_iff.mp hr
    exact (List.mem_append.mp h).elim (ihr hr) (ihs hs)
  | empty => cases hr
  | rep r least most ih => cases hr
  | notAfter test => cases hr
  | notBefore test => cases hr

theorem after_eq_some (h : r.after text = .some rest) : ∃ before, (before, rest) ∈ r.ends (none, text) := by
  obtain ⟨next, hnext, rfl⟩ := Option.map_eq_some_iff.mp h
  exact ⟨next.1, List.mem_of_head? hnext⟩

theorem after_suffix (h : r.after text = .some rest) : rest <:+ text := by
  obtain ⟨before, hends⟩ := after_eq_some h
  obtain ⟨taken, htaken, -⟩ := ends_within (within_true r) hends
  exact ⟨taken, htaken.symm⟩

theorem after_shorter (hr : r.consumes = true) (h : r.after text = .some rest) : rest.length < text.length := by
  obtain ⟨before, hends⟩ := after_eq_some h
  exact ends_shorter hr hends

theorem after_eq_none_iff : r.after text = none ↔ r.ends (none, text) = [] := by
  rw [after, Option.map_eq_none_iff, List.head?_eq_none_iff]

theorem dropLeading_suffix (r : Regex) (text : List Char) : r.dropLeading text <:+ text := by
  rw [dropLeading]
  cases h : r.after text with
  | none => exact List.suffix_rfl
  | some rest => exact after_suffix h

theorem dropLeading_eq_self_iff (hr : r.consumes = true) : r.dropLeading text = text ↔ r.after text = none := by
  rw [dropLeading]
  cases h : r.after text with
  | none => simp
  | some rest =>
    have hshort := after_shorter hr h
    refine iff_of_false ?_ nofun
    intro hsame
    rw [Option.getD_some] at hsame
    rw [hsame] at hshort
    exact absurd hshort (Nat.lt_irrefl _)

theorem dropEach_cons (r : Regex) (rs : List Regex) (text : List Char) :
    dropEach (r :: rs) text = dropEach rs (r.dropLeading text) := rfl

theorem dropEach_suffix (rs : List Regex) (text : List Char) : dropEach rs text <:+ text := by
  induction rs generalizing text with
  | nil => exact List.suffix_rfl
  | cons r rs ih => exact (ih _).trans (dropLeading_suffix r text)

/-- Nothing is taken away exactly if no expression matches. -/
theorem dropEach_eq_self_iff (hrs : ∀ r ∈ rs, r.consumes = true) :
    dropEach rs text = text ↔ ∀ r ∈ rs, r.after text = none := by
  induction rs generalizing text with
  | nil => simp [dropEach]
  | cons r rs ih =>
    obtain ⟨hr, hrs⟩ := List.forall_mem_cons.mp hrs
    rw [dropEach_cons, List.forall_mem_cons, ← dropLeading_eq_self_iff hr]
    constructor
    · intro h
      have hfirst : r.dropLeading text = text := by
        have hsuffix := dropEach_suffix rs (r.dropLeading text)
        rw [h] at hsuffix
        exact (dropLeading_suffix r text).eq_of_length_le hsuffix.length_le
      rw [hfirst] at h
      exact ⟨hfirst, (ih hrs).mp h⟩
    · intro h
      rw [h.1]
      exact (ih hrs).mpr h.2

/-- A greedy run is tried first as far as it goes. -/
theorem head?_repEnds_run (p : Char → Bool) (rounds : Nat) (before : Option Char) (text : List Char)
    (h : text.length ≤ rounds) :
    ∃ last, (repEnds (Regex.one p).ends 0 rounds (before, text)).head? = .some (last, text.dropWhile p) := by
  induction text generalizing before rounds with
  | nil =>
    cases rounds with
    | zero => exact ⟨before, rfl⟩
    | succ rounds => exact ⟨before, rfl⟩
  | cons c rest ih =>
    cases rounds with
    | zero => simp at h
    | succ rounds =>
      cases hc : p c with
      | false => exact ⟨before, by simp [repEnds, ends, hc]⟩
      | true =>
        obtain ⟨last, hlast⟩ := ih rounds (.some c) (Nat.le_of_succ_le_succ h)
        refine ⟨last, ?_⟩
        have hround : repEnds (Regex.one p).ends 0 (rounds + 1) (before, c :: rest) =
            repEnds (Regex.one p).ends 0 rounds (.some c, rest) ++ [(before, c :: rest)] := by
          simp [repEnds, ends, hc]
        rw [hround, List.head?_append, hlast, List.dropWhile_cons, if_pos hc]
        rfl

/-- After a trailing run, the text does not go on in the characters of the run. -/
theorem after_run (h : (Regex.seq r (.many (.one p))).after text = .some rest) : rest.head?.any p = false := by
  obtain ⟨next, hnext, rfl⟩ := Option.map_eq_some_iff.mp h
  rw [ends, List.head?_flatMap] at hnext
  obtain ⟨here, -, hrun⟩ := List.exists_of_findSome?_eq_some hnext
  obtain ⟨last, hlast⟩ := head?_repEnds_run p here.2.length here.1 here.2 (Nat.le_refl _)
  have hends : (Regex.many (.one p)).ends here = repEnds (Regex.one p).ends 0 here.2.length (here.1, here.2) := rfl
  rw [hends, hlast, Option.some.injEq] at hrun
  rw [← hrun]
  cases hdrop : here.2.dropWhile p with
  | nil => rfl
  | cons c rest =>
    have hc := List.head_dropWhile_not p (l := here.2) (by rw [hdrop]; exact List.cons_ne_nil _ _)
    simp only [hdrop, List.head_cons] at hc
    simpa using hc

/-- A trailing run may be empty. -/
theorem after_run_eq_none_iff : (Regex.seq r (.many (.one p))).after text = none ↔ r.after text = none := by
  rw [after_eq_none_iff, after_eq_none_iff, ends, List.flatMap_eq_nil_iff]
  constructor
  · intro h
    rw [List.eq_nil_iff_forall_not_mem]
    intro here hhere
    obtain ⟨last, hlast⟩ := head?_repEnds_run p here.2.length here.1 here.2 (Nat.le_refl _)
    have hnil : repEnds (Regex.one p).ends 0 here.2.length (here.1, here.2) = [] := h here hhere
    rw [hnil] at hlast
    cases hlast
  · intro h here hhere
    rw [h] at hhere
    cases hhere

end Leading

section Reading
variable {r s : Regex} {rs : List Regex} {here last : Place}

/-- The expression matches somewhere. -/
def searches (r : Regex) (text : List Char) : Bool :=
  (List.range (text.length + 1)).any fun i => !(r.ends (placeAt text i)).isEmpty

theorem mem_ends_seq : last ∈ (Regex.seq r s).ends here ↔ ∃ middle ∈ r.ends here, last ∈ s.ends middle :=
  List.mem_flatMap

theorem mem_ends_alt : last ∈ (Regex.alt r s).ends here ↔ last ∈ r.ends here ∨ last ∈ s.ends here := List.mem_append

theorem mem_ends_choice : last ∈ (choice rs).ends here ↔ ∃ r ∈ rs, last ∈ r.ends here := by
  induction rs with
  | nil => simp [choice, ends, repEnds]
  | cons r rs ih =>
    rw [List.exists_mem_cons_iff, ← ih]
    cases rs with
    | nil => simp [choice, ends, repEnds]
    | cons s rs => exact mem_ends_alt

/-- What is optional may be left out. -/
theorem mem_ends_option (r : Regex) (here : Place) : here ∈ (option r).ends here := by
  change here ∈ repEnds r.ends 0 1 here
  rw [repEnds]
  exact List.mem_append_right _ List.mem_cons_self

theorem ends_word {w : List Char} {here : Place} :
    (∃ last, last ∈ (w.foldr (fun c r => .seq (.char c) r) Regex.empty).ends here) ↔ w <+: here.2 := by
  induction w generalizing here with
  | nil => exact iff_of_true ⟨here, List.mem_cons_self⟩ List.nil_prefix
  | cons c w ih =>
    obtain ⟨before, text⟩ := here
    cases text with
    | nil => simp [ends, char]
    | cons d rest =>
      rw [List.foldr_cons, List.cons_prefix_cons, ← @ih (.some d, rest)]
      by_cases hd : d = c
      · simp [ends, char, hd]
      · simp [ends, char, hd, Ne.symm hd]

theorem reads_word_iff {w : String} : (∃ last, last ∈ (word w).ends here) ↔ w.toList <+: here.2 := ends_word

end Reading
end Regex

section Strip
variable {tables : CharTables} {text rest : List Char}

theorem stripChars_length_le (tables : CharTables) (text : List Char) : (stripChars tables text).length ≤ text.length := by
  rw [stripChars_eq]
  exact (List.rdropWhile_prefix _ _).length_le.trans (List.dropWhile_suffix _).length_le

/-- Nothing is stripped where neither end is blank. -/
theorem stripChars_eq_self (hhead : text.head?.any tables.isSpace = false)
    (hlast : text.getLast?.any tables.isSpace = false) : stripChars tables text = text := by
  have hstart : text.dropWhile tables.isSpace = text := by
    cases text with
    | nil => rfl
    | cons c rest => exact List.dropWhile_cons_of_neg (by simpa using hhead)
  rw [stripChars_eq, hstart]
  refine List.rdropWhile_eq_self_iff.mpr fun hne => ?_
  rw [List.getLast?_eq_some_getLast hne] at hlast
  simpa using hlast

theorem head?_stripChars (tables : CharTables) (text : List Char) :
    (stripChars tables text).head?.any tables.isSpace = false := by
  have h := congrArg String.toList (strip_strip tables (String.ofList text))
  simp only [strip, String.toList_ofList] at h
  cases hs : stripChars tables text with
  | nil => rfl
  | cons c rest =>
    rw [List.head?_cons, Option.any_some]
    by_contra hc
    have hlength := stripChars_length_le tables rest
    have hdrop : stripChars tables (c :: rest) = stripChars tables rest := by
      rw [stripChars_eq, stripChars_eq, List.dropWhile_cons_of_pos (by simpa using hc)]
    rw [hs, hdrop] at h
    have hcons := congrArg List.length h
    rw [List.length_cons] at hcons
    omega

theorem getLast?_stripChars (tables : CharTables) (text : List Char) :
    (stripChars tables text).getLast?.any tables.isSpace = false := by
  rw [stripChars_eq]
  cases hs : (text.dropWhile tables.isSpace).rdropWhile tables.isSpace with
  | nil => rfl
  | cons c rest =>
    have hne : (text.dropWhile tables.isSpace).rdropWhile tables.isSpace ≠ [] := by
      rw [hs]
      exact List.cons_ne_nil _ _
    have hlast := List.rdropWhile_last_not _ _ hne
    rw [← hs, List.getLast?_eq_some_getLast hne, Option.any_some]
    simpa using hlast

/-- An end of a stripped text is stripped where it does not start with a blank. -/
theorem stripChars_suffix (hsuffix : rest <:+ stripChars tables text)
    (hhead : rest.head?.any tables.isSpace = false) : stripChars tables rest = rest := by
  refine stripChars_eq_self hhead ?_
  cases rest with
  | nil => rfl
  | cons c rest =>
    have hlast := getLast?_stripChars tables text
    obtain ⟨before, hbefore⟩ := hsuffix
    rw [← hbefore, List.getLast?_append_of_ne_nil _ (List.cons_ne_nil _ _)] at hlast
    exact hlast

end Strip

section FixedPoint

/-- A round leaves the text as it is or makes it shorter. -/
structure Shortening where
  round : List Char → List Char
  shorter : ∀ text, round text ≠ text → (round text).length < text.length

namespace Shortening
variable (f : Shortening)

/-- Round after round, until nothing changes. -/
def fixedPoint (text : List Char) : List Char := if f.round text = text then text else fixedPoint (f.round text)
termination_by text.length
decreasing_by exact f.shorter text (by assumption)

variable {f} {text : List Char}

theorem fixedPoint_of_fixed (h : f.round text = text) : f.fixedPoint text = text := by
  rw [fixedPoint, if_pos h]

/-- What each round keeps, the fixed point has. -/
theorem fixedPoint_induction {P : List Char → Prop} (hround : ∀ text, P text → P (f.round text)) (h : P text) :
    P (f.fixedPoint text) := by
  induction text using fixedPoint.induct f with
  | case1 text hfixed =>
    rw [fixedPoint_of_fixed hfixed]
    exact h
  | case2 text hchanged ih =>
    rw [fixedPoint, if_neg hchanged]
    exact ih (hround text h)

theorem round_fixedPoint (text : List Char) : f.round (f.fixedPoint text) = f.fixedPoint text := by
  induction text using fixedPoint.induct f with
  | case1 text hfixed => rw [fixedPoint_of_fixed hfixed, hfixed]
  | case2 text hchanged ih =>
    rw [fixedPoint, if_neg hchanged]
    exact ih

end Shortening
end FixedPoint
end StockContent.Text
