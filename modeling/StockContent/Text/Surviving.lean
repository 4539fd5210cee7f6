import StockContent.Text.Fullmatch

/-! Matches that a replacement leaves behind. An expression without a look around reads a text wherever it stands; what it
is replaced by may be found again. -/
namespace StockContent.Text
namespace Regex

section Standing
variable {r s : Regex} {taken : List Char} {ends : Place → List Place}

/-- No look around, and no repetition without a bound. -/
def standing : Regex → Bool
  | .empty | .one _ => true
  | .seq r s | .alt r s => r.standing && s.standing
  | .rep r _ most => r.standing && most.isSome
  | .notAfter _ | .notBefore _ => false

/-- The ends depend on the text that is read only. -/
def Standing (ends : Place → List Place) : Prop :=
  ∀ p q taken, q ∈ ends p → p.2 = taken ++ q.2 → ∀ before rest, ∃ last, (last, rest) ∈ ends (before, taken ++ rest)

theorem standing_repEnds (hends : Standing ends) (hsuffix : ∀ p q, q ∈ ends p → ∃ taken, p.2 = taken ++ q.2) (least rounds : Nat) :
    Standing (repEnds ends least rounds) := by
  induction rounds generalizing least with
  | zero =>
    intro p q taken hq htext before rest
    rw [repEnds] at hq
    split at hq
    · rename_i hleast
      rw [List.mem_singleton.mp hq] at htext
      obtain rfl : taken = [] := List.append_cancel_right (htext.symm.trans (List.nil_append _).symm)
      refine ⟨before, ?_⟩
      rw [repEnds, if_pos hleast]
      exact List.mem_singleton_self _
    · cases hq
  | succ rounds ih =>
    intro p q taken hq htext before rest
    rcases List.mem_append.mp hq with hround | hstay
    · obtain ⟨next, hnext, hq⟩ := List.mem_flatMap.mp hround
      split at hq
      · rename_i hshort
        obtain ⟨first, hfirst⟩ := hsuffix p next hnext
        have hrest : ∃ second, next.2 = second ++ q.2 := by
          obtain ⟨second, hsecond, -⟩ := repEnds_within (P := fun _ => True)
            (fun p q hq => (hsuffix p q hq).imp fun _ htaken => ⟨htaken, fun _ _ => trivial⟩) hq
          exact ⟨second, hsecond⟩
        obtain ⟨second, hsecond⟩ := hrest
        have htaken : taken = first ++ second := by
          rw [hsecond, ← List.append_assoc] at hfirst
          exact List.append_cancel_right (htext.symm.trans hfirst)
        obtain ⟨middle, hmiddle⟩ := hends p next first hnext hfirst before (second ++ rest)
        obtain ⟨last, hlast⟩ := ih (least - 1) next q second hq hsecond middle rest
        have hlength : 0 < first.length := by
          rw [hfirst, List.length_append] at hshort
          omega
        have hshort' : (second ++ rest).length < (taken ++ rest).length := by
          simp only [htaken, List.length_append]
          omega
        refine ⟨last, List.mem_append_left _ (List.mem_flatMap.mpr ⟨(middle, second ++ rest), ?_, ?_⟩)⟩
        · rw [htaken, List.append_assoc]
          exact hmiddle
        · rw [if_pos hshort']
          exact hlast
      · cases hq
    · split at hstay
      · rename_i hleast
        rw [List.mem_singleton.mp hstay] at htext
        obtain rfl : taken = [] := List.append_cancel_right (htext.symm.trans (List.nil_append _).symm)
        refine ⟨before, List.mem_append_right _ ?_⟩
        rw [if_pos hleast]
        exact List.mem_singleton_self _
      · cases hstay

theorem standing_ends (hr : r.standing = true) : Standing r.ends := by
  have hsuffix (r : Regex) (p q : Place) (hq : q ∈ r.ends p) : ∃ taken, p.2 = taken ++ q.2 :=
    (ends_within (within_true r) hq).imp fun _ => And.left
  induction r with
  | empty =>
    intro p q taken hq htext before rest
    rw [List.mem_singleton.mp hq] at htext
    obtain rfl : taken = [] := List.append_cancel_right (htext.symm.trans (List.nil_append _).symm)
    exact ⟨before, List.mem_singleton_self _⟩
  | one test =>
    intro p q taken hq htext before rest
    obtain ⟨c, rfl, hc⟩ := readsText_one ⟨p, q, hq, htext⟩
    exact reads_one hc before rest
  | seq r s ihr ihs =>
    obtain ⟨hr, hs⟩ := Bool.and_eq_true_iff.mp hr
    intro p q taken hq htext before rest
    obtain ⟨next, hnext, hq⟩ := List.mem_flatMap.mp hq
    obtain ⟨first, hfirst⟩ := hsuffix r p next hnext
    obtain ⟨second, hsecond⟩ := hsuffix s next q hq
    have htaken : taken = first ++ second := by
      have hboth := hfirst
      rw [hsecond, ← List.append_assoc] at hboth
      exact List.append_cancel_right (htext.symm.trans hboth)
    obtain ⟨middle, hmiddle⟩ := ihr hr p next first hnext hfirst before (second ++ rest)
    obtain ⟨last, hlast⟩ := ihs hs next q second hq hsecond middle rest
    rw [htaken, List.append_assoc]
    exact ⟨last, List.mem_flatMap.mpr ⟨_, hmiddle, hlast⟩⟩
  | alt r s ihr ihs =>
    obtain ⟨hr, hs⟩ := Bool.and_eq_true_iff.mp hr
    intro p q taken hq htext before rest
    rcases List.mem_append.mp hq with hq | hq
    · exact (ihr hr p q taken hq htext before rest).imp fun _ => List.mem_append_left _
    · exact (ihs hs p q taken hq htext before rest).imp fun _ => List.mem_append_right _
  | rep r least most ih =>
    obtain ⟨hround, hmost⟩ := Bool.and_eq_true_iff.mp hr
    obtain ⟨rounds, rfl⟩ := Option.isSome_iff_exists.mp hmost
    exact standing_repEnds (ih hround) (hsuffix r) least rounds
  | notAfter test => cases hr
  | notBefore test => cases hr

theorem ReadsText.reads (h : r.ReadsText taken) (hr : r.standing = true) : r.Reads taken := by
  obtain ⟨p, q, hq, htext⟩ := h
  exact standing_ends hr p q taken hq htext

theorem reads_some_one {test : Char → Bool} {c : Char} (h : test c = true) : (Regex.some (.one test)).Reads [c] := by
  intro before rest
  refine ⟨.some c, List.mem_append_left _ (List.mem_flatMap.mpr ⟨(.some c, rest), ?_, ?_⟩)⟩
  · change _ ∈ Regex.ends (.one test) (before, c :: rest)
    rw [ends, if_pos h]
    exact List.mem_singleton_self _
  · have hshort : rest.length < ([c] ++ rest).length := Nat.lt_succ_self _
    rw [if_pos hshort]
    change _ ∈ repEnds _ 0 rest.length _
    cases rest.length with
    | zero => exact List.mem_singleton_self _
    | succ rounds => exact List.mem_append_right _ (List.mem_singleton_self _)

end Standing

section Surviving
variable {r : Regex} {replace : List Char → List Char} {before : Option Char} {text : List Char}

/-- Where nothing is found, nothing is replaced. -/
theorem subFrom_of_none (h : findAllFrom r before 0 text = []) : subFrom r replace before 0 text = text := by
  induction text generalizing before with
  | nil => rfl
  | cons c rest ih =>
    rw [findAllFrom] at h
    rw [subFrom]
    split at h
    · exact congrArg (List.cons c) (ih h)
    · cases h

theorem findAllFrom_ne_nil {c : Char} {rest : List Char} (h : (r.ends (before, c :: rest)).head? ≠ none) :
    findAllFrom r before 0 (c :: rest) ≠ [] := by
  rw [findAllFrom]
  split
  · contradiction
  · exact List.cons_ne_nil _ _

/-- What a match is replaced by is a match where that one was, whatever follows. -/
def Survives (r : Regex) (replace : List Char → List Char) : Prop :=
  ∀ before text next, next ∈ r.ends (before, text) → ∀ rest,
    ∃ last, last ∈ r.ends (before, replace (text.take (text.length - next.2.length)) ++ rest)

theorem findAllFrom_subFrom_ne_nil (hr : Survives r replace) (hne : ∀ found, replace found ≠ [])
    (h : findAllFrom r before 0 text ≠ []) : findAllFrom r before 0 (subFrom r replace before 0 text) ≠ [] := by
  induction text generalizing before with
  | nil => exact absurd rfl h
  | cons c rest ih =>
    rw [findAllFrom] at h
    rw [subFrom]
    cases hends : (r.ends (before, c :: rest)).head? with
    | none =>
      rw [hends] at h
      rw [findAllFrom]
      split
      · exact ih h
      · exact List.cons_ne_nil _ _
    | some next =>
      obtain ⟨last, hlast⟩ := hr before (c :: rest) next (List.mem_of_head? hends)
        (subFrom r replace (.some c) (rest.length + 1 - next.2.length - 1) rest)
      dsimp only
      rw [List.length_cons] at hlast
      cases hreplaced : replace ((c :: rest).take (rest.length + 1 - next.2.length)) with
      | nil => exact absurd hreplaced (hne _)
      | cons d replaced =>
        rw [hreplaced] at hlast
        refine findAllFrom_ne_nil fun hnone => ?_
        rw [List.head?_eq_none_iff] at hnone
        rw [List.cons_append] at hlast
        exact List.ne_nil_of_mem hlast hnone

end Surviving
end Regex
end StockContent.Text
