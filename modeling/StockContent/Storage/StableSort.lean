import Mathlib.Data.List.Forall2
import Mathlib.Data.List.Pairwise
import Mathlib.Data.List.TakeWhile
import StockContent.Storage.ByKey

/-! What a stable sort keeps of the order of a list, and lists whose earlier values cover later ones, or take them in. -/
namespace StockContent.Storage

section Stable
variable {A K L : Type} [LinearOrder K] [LinearOrder L] (key : A → K)

/-- The first value comes before all others of its key. -/
theorem exists_sortedBy_cons (x : A) (xs : List A) :
    ∃ before after, sortedBy key (x :: xs) = before ++ x :: after ∧ ∀ y ∈ before, key y < key x :=
  ⟨_, _, List.insertionSort_cons_eq_take_drop _ x xs, fun y hy => by simpa using List.mem_takeWhile_imp hy⟩

variable {key} {xs ys : List A} {p : A → Bool}

/-- A value goes before those of its key. -/
theorem pairwise_orderedInsert {R : A → A → Prop} {x : A} (hx : ∀ y ∈ ys, R x y)
    (hys : ys.Pairwise fun x y => key x < key y ∨ key x = key y ∧ R x y) :
    (ys.orderedInsert (fun x y => key x ≤ key y) x).Pairwise fun x y => key x < key y ∨ key x = key y ∧ R x y := by
  induction ys with
  | nil => exact List.pairwise_singleton _ _
  | cons y ys ih =>
    obtain ⟨hxy, hxs⟩ := List.forall_mem_cons.mp hx
    obtain ⟨hy, hrest⟩ := List.pairwise_cons.mp hys
    rw [List.orderedInsert_cons]
    split
    · rename_i hle
      refine List.pairwise_cons.mpr ⟨List.forall_mem_cons.mpr ⟨?_, fun z hz => ?_⟩, hys⟩
      · exact hle.lt_or_eq.imp id fun heq => ⟨heq, hxy⟩
      · rcases hy z hz with hlt | heq
        · exact .inl (hle.trans_lt hlt)
        · exact (hle.trans_eq heq.1).lt_or_eq.imp id fun heq => ⟨heq, hxs z hz⟩
    · rename_i hlt
      refine List.pairwise_cons.mpr ⟨fun z hz => ?_, ih hxs hrest⟩
      rcases List.mem_cons.mp ((List.perm_orderedInsert _ x ys).mem_iff.mp hz) with rfl | hz
      · exact .inl (not_le.mp hlt)
      · exact hy z hz

/-- Of values with the same key the earlier ones come first. -/
theorem pairwise_stable {R : A → A → Prop} (h : xs.Pairwise R) :
    (sortedBy key xs).Pairwise fun x y => key x < key y ∨ key x = key y ∧ R x y := by
  induction xs with
  | nil => exact .nil
  | cons x xs ih =>
    obtain ⟨hx, hxs⟩ := List.pairwise_cons.mp h
    exact pairwise_orderedInsert (fun y hy => hx y (mem_sortedBy.mp hy)) (ih hxs)

theorem filter_orderedInsert (hp : ∀ x y, p x = true → p y = true → key x = key y) (x : A) (xs : List A) :
    (xs.orderedInsert (fun x y => key x ≤ key y) x).filter p = (x :: xs).filter p := by
  induction xs with
  | nil => rfl
  | cons y ys ih =>
    rw [List.orderedInsert_cons]
    split
    · rfl
    · rename_i hlt
      rw [List.filter_cons, ih, List.filter_cons, List.filter_cons, List.filter_cons]
      by_cases hy : p y = true
      · have hx : ¬ p x = true := fun hx => hlt (hp x y hx hy).le
        rw [if_pos hy, if_neg hx, if_neg hx, if_pos hy]
      · rw [if_neg hy, if_neg hy]

/-- Values of one key keep their order. -/
theorem filter_sortedBy (hp : ∀ x y, p x = true → p y = true → key x = key y) (xs : List A) :
    (sortedBy key xs).filter p = xs.filter p := by
  induction xs with
  | nil => rfl
  | cons x xs ih =>
    rw [sortedBy, List.insertionSort_cons, filter_orderedInsert hp, List.filter_cons, List.filter_cons, ← sortedBy, ih]

theorem filter_key_sortedBy (xs : List A) (k : K) :
    (sortedBy key xs).filter (fun x => key x = k) = xs.filter fun x => key x = k :=
  filter_sortedBy (fun _ _ hx hy => (of_decide_eq_true hx).trans (of_decide_eq_true hy).symm) xs

theorem mem_of_filter_key (h : ∀ k, xs.filter (fun x => key x = k) = ys.filter fun x => key x = k) (x : A) :
    x ∈ xs ↔ x ∈ ys := by
  have hx := congrArg (x ∈ ·) (h (key x))
  simpa using hx

/-- A sorted list is known by the values of each key. -/
theorem eq_of_filter_key (hxs : xs.Pairwise fun x y => key x ≤ key y) (hys : ys.Pairwise fun x y => key x ≤ key y)
    (h : ∀ k, xs.filter (fun x => key x = k) = ys.filter fun x => key x = k) : xs = ys := by
  induction xs generalizing ys with
  | nil =>
    refine (List.eq_nil_iff_forall_not_mem.mpr fun y hy => ?_).symm
    exact absurd ((mem_of_filter_key h y).mpr hy) List.not_mem_nil
  | cons x xs ih =>
    cases ys with
    | nil => exact absurd ((mem_of_filter_key h x).mp List.mem_cons_self) List.not_mem_nil
    | cons y ys =>
      obtain ⟨hx, hxs'⟩ := List.pairwise_cons.mp hxs
      obtain ⟨hy, hys'⟩ := List.pairwise_cons.mp hys
      have hle : key x ≤ key y := by
        rcases List.mem_cons.mp ((mem_of_filter_key h y).mpr List.mem_cons_self) with rfl | hin
        · exact le_rfl
        · exact hx y hin
      have hge : key y ≤ key x := by
        rcases List.mem_cons.mp ((mem_of_filter_key h x).mp List.mem_cons_self) with rfl | hin
        · exact le_rfl
        · exact hy x hin
      have hkey : key y = key x := le_antisymm hge hle
      have hheads := h (key x)
      rw [List.filter_cons, List.filter_cons, if_pos (decide_eq_true rfl), if_pos (decide_eq_true hkey)] at hheads
      obtain ⟨rfl, _⟩ := List.cons.inj hheads
      have htails : ∀ k, xs.filter (fun x => key x = k) = ys.filter fun x => key x = k := fun k => by
        have hk := h k
        rw [List.filter_cons, List.filter_cons] at hk
        split at hk
        · exact (List.cons.inj hk).2
        · exact hk
      rw [ih hxs' hys' htails]

/-- Sorting by less, and then by more again, gives the list back. -/
theorem sortedBy_sortedBy (coarse : A → L) (hcoarse : ∀ x y, key x = key y → coarse x = coarse y)
    (hxs : xs.Pairwise fun x y => key x ≤ key y) : sortedBy key (sortedBy coarse xs) = xs :=
  eq_of_filter_key (pairwise_sortedBy key _) hxs fun k => by
    rw [filter_key_sortedBy]
    exact filter_sortedBy
      (fun x y hx hy => hcoarse x y ((of_decide_eq_true hx).trans (of_decide_eq_true hy).symm)) xs

end Stable

theorem pairwise_zipIdx {A : Type} (xs : List A) (k : Nat) : (xs.zipIdx k).Pairwise fun a b => a.2 < b.2 := by
  rw [← List.pairwise_map (f := Prod.snd) (R := (· < ·)), List.zipIdx_map_snd]
  exact List.pairwise_lt_range'

/-- Two members of an ordered list come in one order or the other. -/
theorem pairwise_either {A : Type} {R : A → A → Prop} {xs : List A} (h : xs.Pairwise R) {a b : A} (ha : a ∈ xs)
    (hb : b ∈ xs) (hne : a ≠ b) : R a b ∨ R b a := by
  have hsymm : Std.Symm fun a b => R a b ∨ R b a := ⟨fun _ _ => Or.symm⟩
  have heither : xs.Pairwise fun a b => R a b ∨ R b a := h.imp .inl
  exact heither.forall ha hb hne

section Descending
variable {A B : Type} [LinearOrder B] {key : A → B} {xs ys : List A} {x y z : A} {rest : List A}

/-- The keys come in one order, whatever the order of the values. -/
theorem map_sortedBy_eq_of_perm (h : xs.Perm ys) : (sortedBy key xs).map key = (sortedBy key ys).map key := by
  have hperm : ((sortedBy key xs).map key).Perm ((sortedBy key ys).map key) :=
    ((perm_sortedBy key xs).trans (h.trans (perm_sortedBy key ys).symm)).map key
  have hsorted (zs : List A) : ((sortedBy key zs).map key).Pairwise fun a b => a ≤ b :=
    List.pairwise_map.mpr (pairwise_sortedBy key zs)
  exact hperm.eq_of_pairwise (fun _ _ _ _ => le_antisymm) (hsorted xs) (hsorted ys)

/-- `sorted(xs, key=key, reverse=True)`: values of one key stay in their order. -/
def descendingBy (key : A → B) (xs : List A) : List A := sortedBy (fun x => OrderDual.toDual (key x)) xs

theorem perm_descendingBy (key : A → B) (xs : List A) : (descendingBy key xs).Perm xs := perm_sortedBy _ xs

theorem mem_descendingBy : x ∈ descendingBy key xs ↔ x ∈ xs := (perm_descendingBy key xs).mem_iff

theorem pairwise_descendingBy (key : A → B) (xs : List A) : (descendingBy key xs).Pairwise fun a b => key b ≤ key a :=
  (pairwise_sortedBy (fun x => OrderDual.toDual (key x)) xs).imp OrderDual.toDual_le_toDual.mp

theorem map_descendingBy_eq_of_perm (h : xs.Perm ys) : (descendingBy key xs).map key = (descendingBy key ys).map key :=
  @map_sortedBy_eq_of_perm A Bᵒᵈ _ (fun x => OrderDual.toDual (key x)) xs ys h

theorem greatest_of_descendingBy (h : descendingBy key xs = x :: rest) : Greatest key xs x := by
  have hsorted := pairwise_descendingBy key xs
  rw [h] at hsorted
  refine ⟨mem_descendingBy.mp (h ▸ List.mem_cons_self), fun y hy => ?_⟩
  have hmem : y ∈ x :: rest := h ▸ mem_descendingBy.mpr hy
  rcases List.mem_cons.mp hmem with rfl | hrest
  · exact le_rfl
  · exact (List.pairwise_cons.mp hsorted).1 y hrest

theorem le_second (h : descendingBy key xs = x :: y :: rest) (hz : z ∈ descendingBy key xs) (hne : z ≠ x) : key z ≤ key y := by
  have hsorted := pairwise_descendingBy key xs
  rw [h] at hsorted hz
  have hrest := (List.mem_cons.mp hz).resolve_left hne
  rcases List.mem_cons.mp hrest with rfl | hrest
  · exact le_rfl
  · exact (List.pairwise_cons.mp (List.pairwise_cons.mp hsorted).2).1 z hrest

/-- A first value that is ahead of the second is the only greatest one. -/
theorem eq_of_lead (h : descendingBy key xs = x :: y :: rest) (hlead : key y < key x) (hz : Greatest key xs z) : z = x := by
  by_contra hne
  have hsecond := le_second h (mem_descendingBy.mpr hz.1) hne
  exact absurd (hz.2 x (greatest_of_descendingBy h).1) (not_le.mpr (hsecond.trans_lt hlead))

end Descending

section Thinning
variable {A : Type} (covers : A → A → Prop) [DecidableRel covers]

/-- A value is kept unless one kept before covers it. -/
def keepUncovered (kept : List A) (x : A) : List A := if ∃ y ∈ kept, covers y x then kept else kept ++ [x]

def thin (xs : List A) : List A := xs.foldl (keepUncovered covers) []

variable {covers} {kept xs before after : List A} {x : A}

variable (covers) in
theorem exists_added (kept xs : List A) :
    ∃ added, xs.foldl (keepUncovered covers) kept = kept ++ added ∧ added.Sublist xs := by
  induction xs generalizing kept with
  | nil => exact ⟨[], (List.append_nil kept).symm, .slnil⟩
  | cons x xs ih =>
    obtain ⟨added, hadded, hsublist⟩ := ih (keepUncovered covers kept x)
    rw [List.foldl_cons, hadded, keepUncovered]
    split
    · exact ⟨added, rfl, hsublist.cons x⟩
    · exact ⟨x :: added, List.append_assoc _ _ _, hsublist.cons_cons x⟩

theorem subset_foldl_keepUncovered (kept xs : List A) : kept ⊆ xs.foldl (keepUncovered covers) kept := by
  obtain ⟨added, hadded, _⟩ := exists_added covers kept xs
  rw [hadded]
  exact List.subset_append_left kept added

theorem thin_sublist (xs : List A) : (thin covers xs).Sublist xs := by
  obtain ⟨added, hadded, hsublist⟩ := exists_added covers [] xs
  rw [thin, hadded]
  exact hsublist

theorem keepUncovered_covers (kept : List A) (hrefl : ∀ x, covers x x) (x : A) : ∃ y ∈ keepUncovered covers kept x, covers y x := by
  rw [keepUncovered]
  split
  · assumption
  · exact ⟨x, List.mem_append_right _ List.mem_cons_self, hrefl x⟩

/-- Nothing is left uncovered. -/
theorem foldl_keepUncovered_covers (hrefl : ∀ x, covers x x) (hx : x ∈ xs) :
    ∃ y ∈ xs.foldl (keepUncovered covers) kept, covers y x := by
  induction xs generalizing kept with
  | nil => cases hx
  | cons z xs ih =>
    rcases List.mem_cons.mp hx with rfl | hx
    · obtain ⟨y, hy, hcovers⟩ := keepUncovered_covers kept hrefl x
      exact ⟨y, subset_foldl_keepUncovered _ xs hy, hcovers⟩
    · exact ih hx

theorem thin_covers (hrefl : ∀ x, covers x x) (hx : x ∈ xs) : ∃ y ∈ thin covers xs, covers y x :=
  foldl_keepUncovered_covers hrefl hx

theorem pairwise_foldl_keepUncovered (hkept : kept.Pairwise fun y x => ¬ covers y x) :
    (xs.foldl (keepUncovered covers) kept).Pairwise fun y x => ¬ covers y x := by
  induction xs generalizing kept with
  | nil => exact hkept
  | cons x xs ih =>
    refine ih ?_
    rw [keepUncovered]
    split
    · exact hkept
    · rename_i hnone
      refine List.pairwise_append.mpr ⟨hkept, List.pairwise_singleton _ _, fun y hy z hz => ?_⟩
      rw [List.mem_singleton.mp hz]
      exact fun hcovers => hnone ⟨y, hy, hcovers⟩

/-- No kept value covers a later one. -/
theorem pairwise_thin (xs : List A) : (thin covers xs).Pairwise fun y x => ¬ covers y x :=
  pairwise_foldl_keepUncovered .nil

theorem foldl_keepUncovered_eq (h : (kept ++ xs).Pairwise fun y x => ¬ covers y x) :
    xs.foldl (keepUncovered covers) kept = kept ++ xs := by
  induction xs generalizing kept with
  | nil => exact (List.append_nil kept).symm
  | cons x xs ih =>
    have hnone : ¬ ∃ y ∈ kept, covers y x := fun hsome => by
      obtain ⟨y, hy, hcovers⟩ := hsome
      exact (List.pairwise_append.mp h).2.2 y hy x List.mem_cons_self hcovers
    rw [List.foldl_cons, keepUncovered, if_neg hnone, ih (by rwa [List.append_assoc]), List.append_assoc,
      List.singleton_append]

/-- Values none of which covers a later one are all kept. -/
theorem thin_eq (h : xs.Pairwise fun y x => ¬ covers y x) : thin covers xs = xs := foldl_keepUncovered_eq h

theorem thin_append (before after : List A) :
    thin covers (before ++ after) = after.foldl (keepUncovered covers) (thin covers before) := List.foldl_append

/-- A value that none before it covers is kept right after what is kept of them. -/
theorem thin_of_uncovered (h : ∀ y ∈ before, ¬ covers y x) (after : List A) :
    ∃ added, thin covers (before ++ x :: after) = thin covers before ++ x :: added := by
  have hnone : ¬ ∃ y ∈ thin covers before, covers y x := fun hsome => by
    obtain ⟨y, hy, hcovers⟩ := hsome
    exact h y ((thin_sublist before).subset hy) hcovers
  obtain ⟨added, hadded, _⟩ := exists_added covers (thin covers before ++ [x]) after
  refine ⟨added, ?_⟩
  rw [thin_append, List.foldl_cons, keepUncovered, if_neg hnone, hadded, List.append_assoc, List.singleton_append]

end Thinning

section Absorbing
variable {A B : Type} (same : A → A → Prop) [DecidableRel same] (merge : A → A → A)

/-- The first value that is the same as a new one takes it in; without one it goes to the end. -/
def absorb : List A → A → List A
  | [], x => [x]
  | y :: ys, x => if same y x then merge y x :: ys else y :: absorb ys x

def absorbAll (xs : List A) : List A := xs.foldl (absorb same merge) []

variable {same merge} {xs ys : List A} {x y : A}

theorem absorb_of_fresh (h : ∀ y ∈ ys, ¬ same y x) : absorb same merge ys x = ys ++ [x] := by
  induction ys with
  | nil => rfl
  | cons y ys ih =>
    obtain ⟨hy, hys⟩ := List.forall_mem_cons.mp h
    rw [absorb, if_neg hy, ih hys, List.cons_append]

theorem foldl_absorb_eq (h : (ys ++ xs).Pairwise fun y x => ¬ same y x) :
    xs.foldl (absorb same merge) ys = ys ++ xs := by
  induction xs generalizing ys with
  | nil => exact (List.append_nil ys).symm
  | cons x xs ih =>
    have hfresh : ∀ y ∈ ys, ¬ same y x := fun y hy =>
      (List.pairwise_append.mp h).2.2 y hy x List.mem_cons_self
    rw [List.foldl_cons, absorb_of_fresh hfresh, ih (by rwa [List.append_assoc]), List.append_assoc, List.singleton_append]

/-- Values none of which is the same as a later one stay as they are. -/
theorem absorbAll_eq (h : xs.Pairwise fun y x => ¬ same y x) : absorbAll same merge xs = xs := foldl_absorb_eq h

theorem mem_absorb {z : A} (h : z ∈ absorb same merge ys x) : z ∈ ys ∨ z = x ∨ ∃ y ∈ ys, z = merge y x := by
  induction ys with
  | nil => exact .inr (.inl (List.mem_singleton.mp h))
  | cons y ys ih =>
    rw [absorb] at h
    split at h
    · rcases List.mem_cons.mp h with rfl | hz
      · exact .inr (.inr ⟨y, List.mem_cons_self, rfl⟩)
      · exact .inl (List.mem_cons_of_mem y hz)
    · rcases List.mem_cons.mp h with rfl | hz
      · exact .inl List.mem_cons_self
      · rcases ih hz with hys | hx | ⟨w, hw, hmerged⟩
        · exact .inl (List.mem_cons_of_mem y hys)
        · exact .inr (.inl hx)
        · exact .inr (.inr ⟨w, List.mem_cons_of_mem y hw, hmerged⟩)

/-- Where merging does not change what a value is the same as, no value is the same as a later one. -/
theorem pairwise_absorb (hleft : ∀ x y z, same (merge x y) z ↔ same x z) (hright : ∀ x y z, same z (merge x y) ↔ same z x)
    (h : ys.Pairwise fun y x => ¬ same y x) (x : A) : (absorb same merge ys x).Pairwise fun y x => ¬ same y x := by
  induction ys with
  | nil => exact List.pairwise_singleton _ _
  | cons y ys ih =>
    obtain ⟨hy, hys⟩ := List.pairwise_cons.mp h
    rw [absorb]
    split
    · exact List.pairwise_cons.mpr ⟨fun z hz hsame => hy z hz ((hleft y x z).mp hsame), hys⟩
    · rename_i hfresh
      refine List.pairwise_cons.mpr ⟨fun z hz => ?_, ih hys⟩
      rcases mem_absorb hz with hmem | rfl | ⟨w, hw, rfl⟩
      · exact hy z hmem
      · exact hfresh
      · exact fun hsame => hy w hw ((hright w x y).mp hsame)

theorem pairwise_absorbAll (hleft : ∀ x y z, same (merge x y) z ↔ same x z)
    (hright : ∀ x y z, same z (merge x y) ↔ same z x) (xs : List A) :
    (absorbAll same merge xs).Pairwise fun y x => ¬ same y x := by
  have hall : ∀ ys : List A, ys.Pairwise (fun y x => ¬ same y x) →
      (xs.foldl (absorb same merge) ys).Pairwise fun y x => ¬ same y x := by
    induction xs with
    | nil => exact fun ys h => h
    | cons x xs ih => exact fun ys h => ih _ (pairwise_absorb hleft hright h x)
  exact hall [] .nil

variable (same) in
theorem map_absorb {key : A → B} (hkey : ∀ x y, key (merge x y) = key x) (ys : List A) (x : A) :
    (absorb same merge ys x).map key = ys.map key ∨ (absorb same merge ys x).map key = ys.map key ++ [key x] := by
  induction ys with
  | nil => exact .inr rfl
  | cons y ys ih =>
    rw [absorb]
    split
    · exact .inl (by rw [List.map_cons, hkey, List.map_cons])
    · rw [List.map_cons, List.map_cons, List.cons_append]
      exact ih.imp (congrArg (key y :: ·)) (congrArg (key y :: ·))

variable (same) in
/-- What merging does not touch is that of some of the values, in their order. -/
theorem map_absorbAll_sublist {key : A → B} (hkey : ∀ x y, key (merge x y) = key x) (xs : List A) :
    ((absorbAll same merge xs).map key).Sublist (xs.map key) := by
  have hall : ∀ ys : List A, ((xs.foldl (absorb same merge) ys).map key).Sublist (ys.map key ++ xs.map key) := by
    induction xs with
    | nil => exact fun ys => List.sublist_append_left _ _
    | cons x xs ih =>
      intro ys
      refine (ih _).trans ?_
      rw [List.map_cons]
      rcases map_absorb same hkey ys x with hkept | hadded
      · rw [hkept]
        exact (List.sublist_cons_self _ _).append_left _
      · rw [hadded, List.append_assoc, List.singleton_append]
  exact hall []

variable {P R : List B → A → Prop}

/-- A value that stands for a part is taken in by one that stands for a group, which the part then joins. -/
theorem forall₂_absorb (hstart : ∀ part x, P part x → R part x)
    (hmerge : ∀ group y part x, same y x → R group y → P part x → R (group ++ part) (merge y x))
    {groups : List (List B)} (h : List.Forall₂ R groups ys) {part : List B} (hpart : P part x) :
    ∃ groups', groups'.flatten.Perm (groups.flatten ++ part) ∧ List.Forall₂ R groups' (absorb same merge ys x) := by
  induction h with
  | nil => exact ⟨[part], List.Perm.of_eq (by simp), .cons (hstart part x hpart) .nil⟩
  | @cons group y groups ys hgroup hrest ih =>
    rw [absorb]
    split
    · rename_i hsame
      refine ⟨(group ++ part) :: groups, ?_, .cons (hmerge group y part x hsame hgroup hpart) hrest⟩
      rw [List.flatten_cons, List.flatten_cons, List.append_assoc, List.append_assoc]
      exact List.perm_append_comm.append_left group
    · obtain ⟨groups', hperm, hgroups⟩ := ih
      refine ⟨group :: groups', ?_, .cons hgroup hgroups⟩
      rw [List.flatten_cons, List.flatten_cons, List.append_assoc]
      exact hperm.append_left group

/-- Nothing is lost: the parts that the values stand for come together in groups, one for each value that is left. -/
theorem forall₂_absorbAll (hstart : ∀ part x, P part x → R part x)
    (hmerge : ∀ group y part x, same y x → R group y → P part x → R (group ++ part) (merge y x))
    {parts : List (List B)} (h : List.Forall₂ P parts xs) :
    ∃ groups, groups.flatten.Perm parts.flatten ∧ List.Forall₂ R groups (absorbAll same merge xs) := by
  have hall : ∀ (ys : List A) (groups : List (List B)), List.Forall₂ R groups ys →
      ∃ groups', groups'.flatten.Perm (groups.flatten ++ parts.flatten) ∧
        List.Forall₂ R groups' (xs.foldl (absorb same merge) ys) := by
    induction h with
    | nil => exact fun ys groups hgroups => ⟨groups, List.Perm.of_eq (List.append_nil _).symm, hgroups⟩
    | @cons part x parts xs hpart hrest ih =>
      intro ys groups hgroups
      obtain ⟨next, hnext, hjoined⟩ : ∃ next, next.flatten.Perm (groups.flatten ++ part) ∧
          List.Forall₂ R next (absorb same merge ys x) := forall₂_absorb hstart hmerge hgroups hpart
      obtain ⟨groups', hperm, hdone⟩ := ih _ _ hjoined
      refine ⟨groups', hperm.trans ?_, hdone⟩
      rw [List.flatten_cons, ← List.append_assoc]
      exact hnext.append_right _
  exact hall [] [] .nil

end Absorbing

end StockContent.Storage
