import StockContent.Text.Matches

/-! Expressions that have to read a whole text, part by part, and what each part can read wherever it stands. -/
namespace StockContent.Text
namespace Regex

section Reads
variable {r s : Regex} {rs : List Regex} {taken taken' : List Char}

/-- The expression can read a text, whatever comes before and after it. -/
def Reads (r : Regex) (taken : List Char) : Prop :=
  ∀ before rest, ∃ last, (last, rest) ∈ r.ends (before, taken ++ rest)

theorem reads_empty : empty.Reads [] := fun before _ => ⟨before, List.mem_singleton_self _⟩

theorem reads_one {test : Char → Bool} {c : Char} (h : test c = true) : (one test).Reads [c] := by
  intro before rest
  refine ⟨.some c, ?_⟩
  rw [List.singleton_append, ends, if_pos h]
  exact List.mem_singleton_self _

theorem Reads.seq (hr : r.Reads taken) (hs : s.Reads taken') : (Regex.seq r s).Reads (taken ++ taken') := by
  intro before rest
  obtain ⟨middle, hmiddle⟩ := hr before (taken' ++ rest)
  obtain ⟨last, hlast⟩ := hs middle rest
  refine ⟨last, ?_⟩
  rw [List.append_assoc]
  exact List.mem_flatMap.mpr ⟨_, hmiddle, hlast⟩

theorem reads_word (w : String) : (word w).Reads w.toList := by
  have hletters (letters : List Char) : (letters.foldr (fun c r => .seq (.char c) r) Regex.empty).Reads letters := by
    induction letters with
    | nil => exact reads_empty
    | cons c letters ih => exact (reads_one (decide_eq_true rfl) : (char c).Reads [c]).seq ih
  exact hletters w.toList

theorem Reads.left (hr : r.Reads taken) : (alt r s).Reads taken := by
  intro before rest
  obtain ⟨last, hlast⟩ := hr before rest
  exact ⟨last, List.mem_append_left _ hlast⟩

theorem Reads.right (hs : s.Reads taken) : (alt r s).Reads taken := by
  intro before rest
  obtain ⟨last, hlast⟩ := hs before rest
  exact ⟨last, List.mem_append_right _ hlast⟩

theorem reads_rep_nil (r : Regex) (most : Option Nat) : (rep r 0 most).Reads [] := by
  intro before rest
  refine ⟨before, ?_⟩
  rw [List.nil_append, ends]
  cases most.getD rest.length with
  | zero => exact List.mem_singleton_self _
  | succ rounds => exact List.mem_append_right _ (List.mem_singleton_self _)

theorem Reads.option (hr : r.Reads taken) (hne : taken ≠ []) : (Regex.option r).Reads taken := by
  intro before rest
  obtain ⟨last, hlast⟩ := hr before rest
  refine ⟨last, List.mem_append_left _ (List.mem_flatMap.mpr ⟨_, hlast, ?_⟩)⟩
  have hshort : rest.length < (taken ++ rest).length := by
    have := List.length_pos_iff.mpr hne
    rw [List.length_append]
    omega
  rw [if_pos hshort]
  exact List.mem_singleton_self _

end Reads

section Inverse
variable {r s : Regex} {taken : List Char}

theorem readsText_empty (h : empty.ReadsText taken) : taken = [] := by
  obtain ⟨p, q, hq, htext⟩ := h
  rw [List.mem_singleton.mp hq] at htext
  exact List.append_cancel_right ((List.nil_append _).trans htext).symm

theorem readsText_alt (h : (alt r s).ReadsText taken) : r.ReadsText taken ∨ s.ReadsText taken := by
  obtain ⟨p, q, hq, htext⟩ := h
  exact (List.mem_append.mp hq).imp (fun hq => ⟨p, q, hq, htext⟩) fun hq => ⟨p, q, hq, htext⟩

theorem readsText_option (h : (option r).ReadsText taken) : taken = [] ∨ r.ReadsText taken := by
  obtain ⟨p, q, hq, htext⟩ := h
  rcases List.mem_append.mp hq with hround | hstay
  · obtain ⟨next, hnext, hq⟩ := List.mem_flatMap.mp hround
    split at hq
    · rw [List.mem_singleton.mp hq] at htext
      exact .inr ⟨p, next, hnext, htext⟩
    · cases hq
  · rw [List.mem_singleton.mp hstay] at htext
    exact .inl (List.append_cancel_right ((List.nil_append _).trans htext).symm)

theorem readsText_word {w : String} (h : (word w).ReadsText taken) : taken = w.toList := by
  have hletters (letters : List Char) {taken : List Char}
      (h : (letters.foldr (fun c r => .seq (.char c) r) Regex.empty).ReadsText taken) : taken = letters := by
    induction letters generalizing taken with
    | nil => exact readsText_empty h
    | cons c letters ih =>
      obtain ⟨first, rest, rfl, hfirst, hrest⟩ := readsText_seq h
      obtain ⟨d, rfl, hd⟩ := readsText_one hfirst
      rw [ih hrest, of_decide_eq_true hd, List.singleton_append]
  exact hletters w.toList h

end Inverse
end Regex

section Fullmatch
variable {rs : List Regex} {text : List Char} {parts : List (List Char)}

/-- The first way to read the whole text, with the text of each part. -/
def fullmatch (rs : List Regex) (text : List Char) : Option (List (List Char)) :=
  ((Regex.groups rs (none, text)).find? fun found => found.2.2.isEmpty).map Prod.fst

/-- The first match. -/
def search (rs : List Regex) (text : List Char) : Option Match := (finditer rs text).head?

theorem fullmatch_parts (h : fullmatch rs text = some parts) :
    parts.flatten = text ∧ List.Forall₂ Regex.ReadsText rs parts := by
  obtain ⟨found, hfound, rfl⟩ := Option.map_eq_some_iff.mp h
  obtain ⟨htext, hparts⟩ := Regex.groups_parts (List.mem_of_find?_eq_some hfound)
  have hempty := List.find?_some hfound
  have hend : found.2.2 = [] := List.isEmpty_iff.mp hempty
  rw [hend, List.append_nil] at htext
  exact ⟨htext.symm, hparts⟩

theorem mem_groups_of_reads (h : List.Forall₂ Regex.Reads rs parts) (before : Option Char) (rest : List Char) :
    ∃ last, (parts, (last, rest)) ∈ Regex.groups rs (before, parts.flatten ++ rest) := by
  induction h generalizing before with
  | nil => exact ⟨before, List.mem_singleton_self _⟩
  | @cons r taken rs parts hr hrs ih =>
    obtain ⟨middle, hmiddle⟩ := hr before (parts.flatten ++ rest)
    obtain ⟨last, hlast⟩ := ih middle
    refine ⟨last, ?_⟩
    rw [List.flatten_cons, List.append_assoc]
    refine List.mem_flatMap.mpr ⟨_, hmiddle, List.mem_map.mpr ⟨_, hlast, ?_⟩⟩
    rw [Regex.between_eq rfl]

/-- A text that the parts can read is read, though perhaps in another way. -/
theorem fullmatch_of_reads (h : List.Forall₂ Regex.Reads rs parts) :
    ∃ found, fullmatch rs parts.flatten = some found := by
  obtain ⟨last, hlast⟩ := mem_groups_of_reads h none []
  rw [List.append_nil] at hlast
  have hfind : ((Regex.groups rs (none, parts.flatten)).find? fun found => found.2.2.isEmpty).isSome :=
    List.find?_isSome.mpr ⟨_, hlast, List.isEmpty_iff.mpr rfl⟩
  obtain ⟨found, hfound⟩ := Option.isSome_iff_exists.mp hfind
  refine ⟨found.1, ?_⟩
  rw [fullmatch, hfound, Option.map_some]

/-- A text that can be read in one way only is read in that way. -/
theorem fullmatch_eq_some (h : List.Forall₂ Regex.Reads rs parts)
    (hunique : ∀ found, found.flatten = parts.flatten → List.Forall₂ Regex.ReadsText rs found → found = parts) :
    fullmatch rs parts.flatten = some parts := by
  obtain ⟨found, hfound⟩ := fullmatch_of_reads h
  obtain ⟨htext, hparts⟩ := fullmatch_parts hfound
  rw [hfound, hunique found htext hparts]

theorem fullmatch_eq_none (h : ∀ found, found.flatten = text → ¬ List.Forall₂ Regex.ReadsText rs found) :
    fullmatch rs text = none := by
  cases hmatch : fullmatch rs text with
  | none => rfl
  | some found => exact absurd (fullmatch_parts hmatch).2 (h found (fullmatch_parts hmatch).1)

/-- A text that is read part by part has the characters of the parts. -/
theorem fullmatch_within {P : Char → Prop} (h : fullmatch rs text = some parts) (hrs : ∀ r ∈ rs, r.Within P) :
    ∀ c ∈ text, P c := by
  obtain ⟨rfl, hparts⟩ := fullmatch_parts h
  clear h
  induction hparts with
  | nil => exact List.forall_mem_nil _
  | @cons r taken rs parts hr _ ih =>
    obtain ⟨hfirst, hrest⟩ := List.forall_mem_cons.mp hrs
    exact fun c hc => (List.mem_append.mp hc).elim (hr.within hfirst c) (ih hrest c)

end Fullmatch
end StockContent.Text
