import Mathlib.Data.List.Dedup
import Mathlib.Data.List.Sort
import Mathlib.Data.String.Basic

/-! Lists that stand for sets: sorted, and each key kept once, by its first value. -/
namespace StockContent.Storage

/-- `sorted(set(values))`. -/
def sortedSet (values : List String) : List String := values.dedup.insertionSort (· ≤ ·)

@[simp] theorem mem_sortedSet {values : List String} {x : String} : x ∈ sortedSet values ↔ x ∈ values := by
  rw [sortedSet, List.mem_insertionSort, List.mem_dedup]

theorem ascending_sortedSet (values : List String) : (sortedSet values).Pairwise (· < ·) :=
  have hnodup : (sortedSet values).Nodup := (List.perm_insertionSort _ _).nodup_iff.mpr (List.nodup_dedup values)
  ((List.pairwise_insertionSort (· ≤ ·) values.dedup).and hnodup).imp fun h => lt_of_le_of_ne h.1 h.2

/-- Lists of the same members make one set. -/
theorem sortedSet_congr {xs ys : List String} (h : ∀ x, x ∈ xs ↔ x ∈ ys) : sortedSet xs = sortedSet ys := by
  have hdedup : xs.dedup.Perm ys.dedup := by
    rw [List.perm_ext_iff_of_nodup xs.nodup_dedup ys.nodup_dedup]
    intro x
    rw [List.mem_dedup, List.mem_dedup, h]
  have hperm : (sortedSet xs).Perm (sortedSet ys) :=
    (List.perm_insertionSort _ _).trans (hdedup.trans (List.perm_insertionSort _ _).symm)
  exact hperm.eq_of_pairwise' (List.pairwise_insertionSort _ _) (List.pairwise_insertionSort _ _)

@[simp] theorem sortedSet_sortedSet (values : List String) : sortedSet (sortedSet values) = sortedSet values :=
  sortedSet_congr fun _ => mem_sortedSet

section Membership
variable {A K : Type} [DecidableEq K] (key : A → K)

/-- Values whose key is in `seen` are passed over. -/
def firstOfEach (seen : List K) : List A → List A
  | [] => []
  | x :: xs => if key x ∈ seen then firstOfEach seen xs else x :: firstOfEach (key x :: seen) xs

/-- `le` orders by key first, so that the least value of a key is kept. -/
def stableMembership (le : A → A → Bool) (values : List A) : List A :=
  firstOfEach key [] (values.insertionSort (fun a b => le a b))

variable {key}

theorem firstOfEach_cons (seen : List K) (x : A) (xs : List A) :
    firstOfEach key seen (x :: xs) = if key x ∈ seen then firstOfEach key seen xs else x :: firstOfEach key (key x :: seen) xs :=
  rfl

theorem firstOfEach_sublist (seen : List K) (xs : List A) : (firstOfEach key seen xs).Sublist xs := by
  induction xs generalizing seen with
  | nil => exact .slnil
  | cons x xs ih =>
    rw [firstOfEach_cons]
    split
    · exact (ih seen).cons x
    · exact (ih (key x :: seen)).cons_cons x

theorem mem_keys_firstOfEach {seen : List K} {xs : List A} {k : K} :
    k ∈ (firstOfEach key seen xs).map key ↔ k ∈ xs.map key ∧ k ∉ seen := by
  induction xs generalizing seen with
  | nil => simp [firstOfEach]
  | cons x xs ih =>
    rw [firstOfEach_cons]
    split
    · rename_i hx
      rw [ih, List.map_cons, List.mem_cons]
      constructor
      · rintro ⟨hk, hn⟩
        exact ⟨.inr hk, hn⟩
      · rintro ⟨hk, hn⟩
        refine ⟨hk.resolve_left ?_, hn⟩
        rintro rfl
        exact hn hx
    · rename_i hx
      rw [List.map_cons, List.map_cons, List.mem_cons, List.mem_cons, ih, List.mem_cons]
      by_cases hk : k = key x
      · simp [hk, hx]
      · simp [hk]

theorem nodup_keys_firstOfEach (seen : List K) (xs : List A) : ((firstOfEach key seen xs).map key).Nodup := by
  induction xs generalizing seen with
  | nil => exact List.nodup_nil
  | cons x xs ih =>
    rw [firstOfEach_cons]
    split
    · exact ih seen
    · rw [List.map_cons, List.nodup_cons]
      refine ⟨?_, ih _⟩
      intro hx
      exact (mem_keys_firstOfEach.mp hx).2 List.mem_cons_self

/-- Where no key repeats, nothing is passed over. -/
theorem firstOfEach_of_nodup {seen : List K} {xs : List A} (hnodup : (xs.map key).Nodup)
    (hseen : ∀ x ∈ xs, key x ∉ seen) : firstOfEach key seen xs = xs := by
  induction xs generalizing seen with
  | nil => rfl
  | cons x xs ih =>
    obtain ⟨hx, hxs⟩ := List.nodup_cons.mp hnodup
    obtain ⟨hfree, hrest⟩ := List.forall_mem_cons.mp hseen
    rw [firstOfEach_cons, if_neg hfree, ih hxs]
    intro y hy hin
    rcases List.mem_cons.mp hin with he | hin
    · exact hx (he ▸ List.mem_map_of_mem hy)
    · exact hrest y hy hin

theorem firstOfEach_map {B : Type} (f : B → A) (seen : List K) (xs : List B) :
    firstOfEach key seen (xs.map f) = (firstOfEach (fun x => key (f x)) seen xs).map f := by
  induction xs generalizing seen with
  | nil => rfl
  | cons x xs ih =>
    rw [List.map_cons, firstOfEach_cons, firstOfEach_cons]
    split
    · exact ih seen
    · rw [List.map_cons, ih]

/-- The first value is kept. -/
theorem head_mem_firstOfEach (x : A) (xs : List A) : x ∈ firstOfEach key [] (x :: xs) := by
  rw [firstOfEach_cons, if_neg List.not_mem_nil]
  exact List.mem_cons_self

theorem eq_of_mem_firstOfEach {seen : List K} {xs : List A} {x y : A} (hx : x ∈ firstOfEach key seen xs)
    (hy : y ∈ firstOfEach key seen xs) (h : key x = key y) : x = y :=
  List.inj_on_of_nodup_map (nodup_keys_firstOfEach seen xs) hx hy h

/-- Where the key determines the value, every value is kept. -/
theorem mem_firstOfEach {xs : List A} (hkey : ∀ x ∈ xs, ∀ y ∈ xs, key x = key y → x = y) {x : A} :
    x ∈ firstOfEach key [] xs ↔ x ∈ xs := by
  constructor
  · exact fun h => (firstOfEach_sublist [] xs).subset h
  · intro hx
    have hkept : key x ∈ (firstOfEach key [] xs).map key :=
      mem_keys_firstOfEach.mpr ⟨List.mem_map_of_mem hx, List.not_mem_nil⟩
    obtain ⟨y, hy, hsame⟩ := List.mem_map.mp hkept
    rwa [hkey x hx y ((firstOfEach_sublist [] xs).subset hy) hsame.symm]

theorem firstOfEach_perm {xs ys : List A} (hkey : ∀ x ∈ xs, ∀ y ∈ xs, key x = key y → x = y)
    (h : ∀ x, x ∈ xs ↔ x ∈ ys) : (firstOfEach key [] xs).Perm (firstOfEach key [] ys) := by
  have hkey' : ∀ x ∈ ys, ∀ y ∈ ys, key x = key y → x = y :=
    fun x hx y hy => hkey x ((h x).mpr hx) y ((h y).mpr hy)
  rw [List.perm_ext_iff_of_nodup (nodup_keys_firstOfEach [] xs).of_map (nodup_keys_firstOfEach [] ys).of_map]
  intro x
  rw [mem_firstOfEach hkey, mem_firstOfEach hkey', h]

/-- Nothing is lost but repetitions. -/
theorem mem_keys_stableMembership {le : A → A → Bool} {values : List A} {k : K} :
    k ∈ (stableMembership key le values).map key ↔ k ∈ values.map key := by
  rw [stableMembership, mem_keys_firstOfEach]
  simp [List.mem_insertionSort]

theorem mem_of_stableMembership {le : A → A → Bool} {values : List A} {x : A}
    (h : x ∈ stableMembership key le values) : x ∈ values := by
  have hsorted := (firstOfEach_sublist [] _).subset h
  exact (List.mem_insertionSort _).mp hsorted

theorem nodup_keys_stableMembership (le : A → A → Bool) (values : List A) :
    ((stableMembership key le values).map key).Nodup :=
  nodup_keys_firstOfEach _ _

end Membership

section Ordered
variable {A K : Type} [LinearOrder A] [LinearOrder K] {key : A → K}

/-- In an ordered list the first value of a key is the least. -/
theorem mem_firstOfEach_sorted {seen : List K} {xs : List A} (hsorted : xs.Pairwise (· ≤ ·)) {x : A} :
    x ∈ firstOfEach key seen xs ↔ x ∈ xs ∧ key x ∉ seen ∧ ∀ y ∈ xs, key y = key x → x ≤ y := by
  induction xs generalizing seen with
  | nil => simp [firstOfEach]
  | cons z xs ih =>
    obtain ⟨hleast, hrest⟩ := List.pairwise_cons.mp hsorted
    rw [firstOfEach_cons, List.mem_cons, List.forall_mem_cons]
    split
    · rename_i hseen
      rw [ih hrest]
      constructor
      · rintro ⟨hx, hfree, hmin⟩
        refine ⟨.inr hx, hfree, fun hkey => absurd (hkey ▸ hseen) hfree, hmin⟩
      · rintro ⟨hx, hfree, -, hmin⟩
        refine ⟨hx.resolve_left ?_, hfree, hmin⟩
        rintro rfl
        exact hfree hseen
    · rename_i hseen
      rw [List.mem_cons, ih hrest, List.mem_cons]
      constructor
      · rintro (rfl | ⟨hx, hfree, hmin⟩)
        · exact ⟨.inl rfl, hseen, fun _ => le_rfl, fun y hy _ => hleast y hy⟩
        · obtain ⟨hne, hfree⟩ := not_or.mp hfree
          exact ⟨.inr hx, hfree, fun hkey => absurd hkey.symm hne, hmin⟩
      · rintro ⟨hx, hfree, hhead, hmin⟩
        by_cases hkey : key x = key z
        · refine .inl ?_
          rcases hx with hx | hx
          · exact hx
          · exact le_antisymm (hhead hkey.symm) (hleast x hx)
        · refine .inr ⟨hx.resolve_left ?_, not_or.mpr ⟨hkey, hfree⟩, hmin⟩
          rintro rfl
          exact hkey rfl

/-- Of each key the least value is kept. -/
theorem mem_stableMembership_least {xs : List A} {x : A} :
    x ∈ stableMembership key (fun a b => a ≤ b) xs ↔ x ∈ xs ∧ ∀ y ∈ xs, key y = key x → x ≤ y := by
  have hsorted : (xs.insertionSort fun a b => decide (a ≤ b) = true).Pairwise (· ≤ ·) := by
    simp only [decide_eq_true_eq]
    exact List.pairwise_insertionSort _ xs
  rw [stableMembership, mem_firstOfEach_sorted hsorted]
  simp [List.mem_insertionSort]

/-- What is kept of a list is up to its members alone. -/
theorem stableMembership_congr {xs ys : List A} (h : ∀ x, x ∈ xs ↔ x ∈ ys) :
    stableMembership key (fun a b => a ≤ b) xs = stableMembership key (fun a b => a ≤ b) ys := by
  have hsorted (zs : List A) : (stableMembership key (fun a b => a ≤ b) zs).Pairwise (· ≤ ·) := by
    refine List.Pairwise.sublist (firstOfEach_sublist [] _) ?_
    simp only [decide_eq_true_eq]
    exact List.pairwise_insertionSort _ zs
  have hnodup (zs : List A) : (stableMembership key (fun a b => a ≤ b) zs).Nodup :=
    (nodup_keys_stableMembership _ zs).of_map
  have hperm : (stableMembership key (fun a b => a ≤ b) xs).Perm (stableMembership key (fun a b => a ≤ b) ys) := by
    rw [List.perm_ext_iff_of_nodup (hnodup xs) (hnodup ys)]
    intro x
    simp only [mem_stableMembership_least, h]
  exact hperm.eq_of_pairwise' (hsorted xs) (hsorted ys)

variable {B : Type} {entry : B → A}

/-- Values kept by what they are ordered by. -/
theorem map_stableMembership (values : List B) :
    (stableMembership (fun v => key (entry v)) (fun a b => entry a ≤ entry b) values).map entry =
      stableMembership key (fun a b => a ≤ b) (values.map entry) := by
  have hsort := List.map_insertionSort (fun a b : B => decide (entry a ≤ entry b) = true)
    (fun a b : A => decide (a ≤ b) = true) entry values fun _ _ _ _ => Iff.rfl
  rw [stableMembership, stableMembership, ← firstOfEach_map entry [], hsort]

/-- What was kept is kept again. -/
theorem stableMembership_again (values : List B) :
    stableMembership (fun v => key (entry v)) (fun a b => entry a ≤ entry b)
        (stableMembership (fun v => key (entry v)) (fun a b => entry a ≤ entry b) values) =
      stableMembership (fun v => key (entry v)) (fun a b => entry a ≤ entry b) values := by
  have := IsTrans.mk (r := fun a b : B => decide (entry a ≤ entry b) = true) fun a b c hab hbc =>
    decide_eq_true ((of_decide_eq_true hab).trans (of_decide_eq_true hbc))
  have := Std.Total.mk (r := fun a b : B => decide (entry a ≤ entry b) = true) fun a b =>
    (le_total (entry a) (entry b)).imp decide_eq_true decide_eq_true
  have hsorted := (List.pairwise_insertionSort (fun a b : B => decide (entry a ≤ entry b) = true) values).sublist
    (@firstOfEach_sublist B K _ (fun v => key (entry v)) [] _)
  have hkept := @nodup_keys_stableMembership B K _ (fun v => key (entry v)) (fun a b => entry a ≤ entry b) values
  rw [← stableMembership] at hsorted
  conv_lhs => rw [stableMembership]
  rw [List.Pairwise.insertionSort_eq hsorted]
  exact firstOfEach_of_nodup hkept fun _ _ => List.not_mem_nil

end Ordered

/-- By the order of their texts, what is kept stands in that order. -/
theorem stableMembership_pairwise {A : Type} (key : A → String) (values : List A) :
    (stableMembership key (fun a b => key a ≤ key b) values).Pairwise fun a b => key a < key b := by
  have := IsTrans.mk (r := fun a b : A => decide (key a ≤ key b) = true) fun a b c hab hbc =>
    decide_eq_true ((of_decide_eq_true hab).trans (of_decide_eq_true hbc))
  have := Std.Total.mk (r := fun a b : A => decide (key a ≤ key b) = true) fun a b =>
    (le_total (key a) (key b)).imp decide_eq_true decide_eq_true
  have hsorted := List.pairwise_insertionSort (fun a b : A => decide (key a ≤ key b) = true) values
  have hkept := hsorted.sublist (@firstOfEach_sublist A String _ key [] _)
  have hdistinct := List.pairwise_map.mp (@nodup_keys_stableMembership A String _ key (fun a b => key a ≤ key b) values)
  exact (hkept.and hdistinct).imp fun h => lt_of_le_of_ne (of_decide_eq_true h.1) h.2

end StockContent.Storage
