import Mathlib.Data.List.MinMax
import Mathlib.Data.List.Sort

/-! Stable sorting by a key. Where the key tells the values of a list apart, the order of the list does not matter. -/
namespace StockContent.Storage

section SortedBy
variable {A K : Type} [LinearOrder K] (key : A → K)

/-- `sorted(values, key=key)`. -/
def sortedBy (values : List A) : List A := values.insertionSort fun a b => key a ≤ key b

variable {key} {xs ys : List A}

theorem perm_sortedBy (key : A → K) (xs : List A) : (sortedBy key xs).Perm xs := List.perm_insertionSort _ _

@[simp] theorem mem_sortedBy {x : A} : x ∈ sortedBy key xs ↔ x ∈ xs := (perm_sortedBy key xs).mem_iff

theorem pairwise_sortedBy (key : A → K) (xs : List A) : (sortedBy key xs).Pairwise fun a b => key a ≤ key b := by
  have := IsTrans.mk (r := fun a b : A => key a ≤ key b) fun _ _ _ => le_trans
  have := Std.Total.mk (r := fun a b : A => key a ≤ key b) fun a b => le_total (key a) (key b)
  exact List.pairwise_insertionSort _ _

theorem sortedBy_eq_of_perm (h : xs.Perm ys) (hkey : ∀ x ∈ xs, ∀ y ∈ xs, key x = key y → x = y) :
    sortedBy key xs = sortedBy key ys := by
  have hperm := (perm_sortedBy key xs).trans (h.trans (perm_sortedBy key ys).symm)
  refine hperm.eq_of_pairwise ?_ (pairwise_sortedBy key xs) (pairwise_sortedBy key ys)
  intro x y hx hy hxy hyx
  exact hkey x (mem_sortedBy.mp hx) y (h.mem_iff.mpr (mem_sortedBy.mp hy)) (le_antisymm hxy hyx)

end SortedBy

/-! The greatest and the least elements of a list by a key. `argmax` and `argmin` take the first of them, so where
there are several the choice is up to the order of the list. -/

section Greatest
variable {A B : Type} [LinearOrder B]

/-- An element that no other one has a greater key than. -/
def Greatest (key : A → B) (xs : List A) (x : A) : Prop := x ∈ xs ∧ ∀ y ∈ xs, key y ≤ key x

variable {key : A → B} {xs ys : List A} {x : A}

theorem Greatest.perm (h : Greatest key xs x) (hp : ys.Perm xs) : Greatest key ys x :=
  ⟨hp.mem_iff.mpr h.1, fun y hy => h.2 y (hp.mem_iff.mp hy)⟩

theorem greatest_of_argmax (h : xs.argmax key = some x) : Greatest key xs x :=
  ⟨List.argmax_mem h, fun _ hy => List.le_of_mem_argmax hy h⟩

theorem argmax_isSome_of_mem (h : x ∈ xs) : ∃ y, xs.argmax key = some y :=
  Option.ne_none_iff_exists'.mp fun hnone => List.ne_nil_of_mem h (List.argmax_eq_none.mp hnone)

variable [DecidableEq A]

theorem argmax_cons_greatest (h : Greatest key (x :: xs) x) : (x :: xs).argmax key = some x :=
  List.argmax_eq_some_iff.mpr ⟨h.1, h.2, fun y _ _ => by simp⟩

/-- The choice is the same in any order exactly if there is only one element to choose. -/
theorem argmax_perm_iff :
    (∀ ys : List A, ys.Perm xs → ys.argmax key = xs.argmax key) ↔
      ∀ x y, Greatest key xs x → Greatest key xs y → x = y := by
  constructor
  · intro h x y hx hy
    have hfront {z : A} (hz : Greatest key xs z) : xs.argmax key = some z := by
      have hp := (List.perm_cons_erase hz.1).symm
      rw [← h _ hp]
      exact argmax_cons_greatest (hz.perm hp)
    exact Option.some.inj ((hfront hx).symm.trans (hfront hy))
  · intro h ys hp
    cases hchosen : xs.argmax key with
    | none =>
      rw [List.argmax_eq_none] at hchosen ⊢
      rw [hchosen] at hp
      exact hp.eq_nil
    | some x =>
      have hx := greatest_of_argmax hchosen
      obtain ⟨y, hy⟩ : ∃ y, ys.argmax key = some y := argmax_isSome_of_mem (hp.mem_iff.mpr hx.1)
      rw [hy, h y x ((greatest_of_argmax hy).perm hp.symm) hx]

end Greatest

section Least
variable {A B : Type} [LinearOrder B] {key : A → B} {p : A → Bool} {xs : List A} {x : A}

/-- The first of the least candidates: those before it are greater. -/
theorem argmin_filter_split (h : (xs.filter p).argmin key = some x) :
    ∃ before rest, xs = before ++ x :: rest ∧ p x = true ∧ (∀ y ∈ before, p y = true → key x < key y) ∧
      ∀ y ∈ rest, p y = true → key x ≤ key y := by
  induction xs with
  | nil => cases h
  | cons z xs ih =>
    have hskip (hz : (xs.filter p).argmin key = some x) (hkey : p z = true → key x < key z) : ∃ before rest,
        z :: xs = before ++ x :: rest ∧ p x = true ∧ (∀ y ∈ before, p y = true → key x < key y) ∧
          ∀ y ∈ rest, p y = true → key x ≤ key y := by
      obtain ⟨before, rest, rfl, hx, hbefore, hrest⟩ := ih hz
      exact ⟨z :: before, rest, rfl, hx, List.forall_mem_cons.mpr ⟨hkey, hbefore⟩, hrest⟩
    cases hz : p z with
    | false =>
      rw [List.filter_cons_of_neg (by simp [hz])] at h
      exact hskip h fun htrue => absurd (hz.symm.trans htrue) Bool.false_ne_true
    | true =>
      rw [List.filter_cons_of_pos hz, List.argmin_cons] at h
      cases hrest : (xs.filter p).argmin key with
      | none =>
        rw [hrest] at h
        obtain rfl := Option.some.inj h
        refine ⟨[], xs, rfl, hz, nofun, fun y hy hp => ?_⟩
        have hmem := List.mem_filter.mpr ⟨hy, hp⟩
        rw [List.argmin_eq_none.mp hrest] at hmem
        cases hmem
      | some least =>
        rw [hrest] at h
        dsimp only at h
        split at h
        · rename_i hless
          obtain rfl := Option.some.inj h
          exact hskip hrest fun _ => hless
        · rename_i hless
          obtain rfl := Option.some.inj h
          refine ⟨[], xs, rfl, hz, nofun, fun y hy hp => (not_lt.mp hless).trans ?_⟩
          exact List.le_of_mem_argmin (List.mem_filter.mpr ⟨hy, hp⟩) hrest

/-- The candidate that is taken is a good one exactly if every other candidate has a good one before it that is not
greater, or behind it one that is less. -/
theorem argmin_filter_good_iff {good : A → Bool} (hgood : ∀ x, good x = true → p x = true) (h : ∃ x ∈ xs, good x = true) :
    (∃ x, (xs.filter p).argmin key = some x ∧ good x = true) ↔
      ∀ before x rest, xs = before ++ x :: rest → p x = true → good x = false →
        (∃ y ∈ before, good y = true ∧ key y ≤ key x) ∨ ∃ y ∈ rest, good y = true ∧ key y < key x := by
  constructor
  · rintro ⟨least, hleast, hg⟩ before x rest hsplit hx hbad
    obtain ⟨before', rest', hsplit', -, hbefore', hrest'⟩ := argmin_filter_split hleast
    rcases List.append_eq_append_iff.mp (hsplit.symm.trans hsplit') with hcase | hcase
    · obtain ⟨between, hb, hr⟩ := hcase
      cases between with
      | nil =>
        obtain ⟨rfl, -⟩ := List.cons.inj hr
        exact absurd (hbad.symm.trans hg) Bool.false_ne_true
      | cons z between =>
        obtain ⟨hz, htail⟩ := List.cons.inj hr
        subst hz
        refine .inr ⟨least, ?_, hg, hbefore' x ?_ hx⟩
        · rw [htail]
          exact List.mem_append_right _ List.mem_cons_self
        · rw [hb]
          exact List.mem_append_right _ List.mem_cons_self
    · obtain ⟨between, hb, hr⟩ := hcase
      cases between with
      | nil =>
        obtain ⟨rfl, -⟩ := List.cons.inj hr
        exact absurd (hbad.symm.trans hg) Bool.false_ne_true
      | cons z between =>
        obtain ⟨hz, htail⟩ := List.cons.inj hr
        subst hz
        refine .inl ⟨least, ?_, hg, hrest' x ?_ hx⟩
        · rw [hb]
          exact List.mem_append_right _ List.mem_cons_self
        · rw [htail]
          exact List.mem_append_right _ List.mem_cons_self
  · intro hcondition
    obtain ⟨x, hx, hg⟩ := h
    obtain ⟨least, hleast⟩ : ∃ least, (xs.filter p).argmin key = some least := by
      refine Option.ne_none_iff_exists'.mp fun hnone => ?_
      exact List.ne_nil_of_mem (List.mem_filter.mpr ⟨hx, hgood x hg⟩) (List.argmin_eq_none.mp hnone)
    refine ⟨least, hleast, ?_⟩
    by_contra hbad
    obtain ⟨before, rest, hsplit, hp, hbefore, hrest⟩ := argmin_filter_split hleast
    rcases hcondition before least rest hsplit hp (Bool.eq_false_iff.mpr hbad) with hearlier | hlater
    · obtain ⟨y, hy, hgy, hle⟩ := hearlier
      exact absurd (hbefore y hy (hgood y hgy)) (not_lt.mpr hle)
    · obtain ⟨y, hy, hgy, hlt⟩ := hlater
      exact absurd (hrest y hy (hgood y hgy)) (not_le.mpr hlt)

end Least
end StockContent.Storage
