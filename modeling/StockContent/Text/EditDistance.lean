import Mathlib.Data.List.TakeDrop
import Mathlib.Order.MinMax

/-! The number of insertions, deletions and replacements that turn one list into another, and the rows it is computed
in. -/
namespace StockContent.Text

section Distance
variable {A : Type} [DecidableEq A]

/-- The head of the first list is deleted, that of the second one inserted, or one put for the other. -/
def editDistance : List A → List A → Nat
  | [], ys => ys.length
  | x :: xs, [] => (x :: xs).length
  | x :: xs, y :: ys =>
    min (min (editDistance xs (y :: ys) + 1) (editDistance (x :: xs) ys + 1)) (editDistance xs ys + if x = y then 0 else 1)
termination_by xs ys => xs.length + ys.length

@[simp] theorem editDistance_nil_left (ys : List A) : editDistance [] ys = ys.length := by
  rw [editDistance]

@[simp] theorem editDistance_nil_right (xs : List A) : editDistance xs [] = xs.length := by
  cases xs with
  | nil => rw [editDistance]
  | cons x xs => rw [editDistance]

theorem editDistance_cons_cons (x y : A) (xs ys : List A) : editDistance (x :: xs) (y :: ys) =
    min (min (editDistance xs (y :: ys) + 1) (editDistance (x :: xs) ys + 1))
      (editDistance xs ys + if x = y then 0 else 1) := by
  rw [editDistance]

/-- Edits that turn the first list into the second one, with what they cost. -/
inductive Script : List A → List A → Nat → Prop
  | done : Script [] [] 0
  | delete {xs ys : List A} {n : Nat} (x : A) : Script xs ys n → Script (x :: xs) ys (n + 1)
  | insert {xs ys : List A} {n : Nat} (y : A) : Script xs ys n → Script xs (y :: ys) (n + 1)
  | replace {xs ys : List A} {n : Nat} (x y : A) :
      Script xs ys n → Script (x :: xs) (y :: ys) (n + if x = y then 0 else 1)

variable {xs ys us vs : List A} {n m : Nat}

theorem Script.insertAll (ys : List A) : Script [] ys ys.length := by
  induction ys with
  | nil => exact .done
  | cons y ys ih => exact .insert y ih

theorem Script.deleteAll (xs : List A) : Script xs [] xs.length := by
  induction xs with
  | nil => exact .done
  | cons x xs ih => exact .delete x ih

theorem script_editDistance (xs ys : List A) : Script xs ys (editDistance xs ys) := by
  induction xs, ys using editDistance.induct with
  | case1 ys =>
    rw [editDistance_nil_left]
    exact .insertAll ys
  | case2 x xs =>
    rw [editDistance_nil_right]
    exact .deleteAll (x :: xs)
  | case3 x xs y ys hdelete hinsert hreplace =>
    rw [editDistance_cons_cons]
    rcases min_choice (min (editDistance xs (y :: ys) + 1) (editDistance (x :: xs) ys + 1))
      (editDistance xs ys + if x = y then 0 else 1) with h | h
    · rw [h]
      rcases min_choice (editDistance xs (y :: ys) + 1) (editDistance (x :: xs) ys + 1) with h | h
      · rw [h]
        exact .delete x hdelete
      · rw [h]
        exact .insert y hinsert
    · rw [h]
      exact .replace x y hreplace

/-- No edits cost less than the distance. -/
theorem Script.editDistance_le (h : Script xs ys n) : editDistance xs ys ≤ n := by
  induction h with
  | done => exact (editDistance_nil_left []).le
  | @delete xs ys n x h ih =>
    cases ys with
    | nil =>
      rw [editDistance_nil_right] at ih ⊢
      exact Nat.succ_le_succ ih
    | cons y ys =>
      rw [editDistance_cons_cons]
      exact (min_le_left _ _).trans ((min_le_left _ _).trans (Nat.succ_le_succ ih))
  | @insert xs ys n y h ih =>
    cases xs with
    | nil =>
      rw [editDistance_nil_left] at ih ⊢
      exact Nat.succ_le_succ ih
    | cons x xs =>
      rw [editDistance_cons_cons]
      exact (min_le_left _ _).trans ((min_le_right _ _).trans (Nat.succ_le_succ ih))
  | replace x y h ih =>
    rw [editDistance_cons_cons]
    exact (min_le_right _ _).trans (Nat.add_le_add_right ih _)

theorem Script.append (h : Script xs ys n) (h' : Script us vs m) : Script (xs ++ us) (ys ++ vs) (n + m) := by
  induction h with
  | done =>
    rw [Nat.zero_add]
    exact h'
  | delete x _ ih =>
    rw [Nat.add_right_comm]
    exact .delete x ih
  | insert y _ ih =>
    rw [Nat.add_right_comm]
    exact .insert y ih
  | replace x y _ ih =>
    rw [Nat.add_right_comm]
    exact .replace x y ih

theorem Script.reverse (h : Script xs ys n) : Script xs.reverse ys.reverse n := by
  induction h with
  | done => exact .done
  | @delete xs ys n x _ ih =>
    rw [List.reverse_cons, ← List.append_nil ys.reverse]
    exact ih.append (.delete x .done)
  | @insert xs ys n y _ ih =>
    rw [List.reverse_cons, ← List.append_nil xs.reverse]
    exact ih.append (.insert y .done)
  | @replace xs ys n x y _ ih =>
    rw [List.reverse_cons, List.reverse_cons]
    have hlast := ih.append (.replace x y .done)
    rwa [Nat.zero_add] at hlast

theorem editDistance_reverse (xs ys : List A) : editDistance xs.reverse ys.reverse = editDistance xs ys := by
  refine le_antisymm (script_editDistance xs ys).reverse.editDistance_le ?_
  have hback := (script_editDistance xs.reverse ys.reverse).reverse.editDistance_le
  rwa [List.reverse_reverse, List.reverse_reverse] at hback

/-- The same choice at the ends of the lists. -/
theorem editDistance_concat_concat (x y : A) (xs ys : List A) : editDistance (xs ++ [x]) (ys ++ [y]) =
    min (min (editDistance xs (ys ++ [y]) + 1) (editDistance (xs ++ [x]) ys + 1))
      (editDistance xs ys + if x = y then 0 else 1) := by
  have hcons := editDistance_cons_cons x y xs.reverse ys.reverse
  simp only [← List.reverse_concat, editDistance_reverse] at hcons
  exact hcons

theorem Script.length_le (h : Script xs ys n) : xs.length ≤ ys.length + n ∧ ys.length ≤ xs.length + n := by
  induction h with
  | done => exact ⟨le_rfl, le_rfl⟩
  | delete x _ ih =>
    rw [List.length_cons]
    omega
  | insert y _ ih =>
    rw [List.length_cons]
    omega
  | replace x y _ ih =>
    rw [List.length_cons, List.length_cons]
    omega

theorem Script.eq_of_free (h : Script xs ys 0) : xs = ys := by
  generalize hn : 0 = n at h
  induction h with
  | done => rfl
  | delete => cases hn
  | insert => cases hn
  | replace x y _ ih =>
    by_cases hxy : x = y
    · rw [if_pos hxy, Nat.add_zero] at hn
      rw [hxy, ih hn]
    · rw [if_neg hxy] at hn
      cases hn

theorem Script.keepAll (xs : List A) : Script xs xs 0 := by
  induction xs with
  | nil => exact .done
  | cons x xs ih =>
    have hkept := ih.replace x x
    rwa [if_pos rfl] at hkept

theorem editDistance_eq_zero : editDistance xs ys = 0 ↔ xs = ys := by
  constructor
  · intro h
    exact Script.eq_of_free (h ▸ script_editDistance xs ys)
  · rintro rfl
    exact Nat.le_zero.mp (Script.keepAll xs).editDistance_le

end Distance

section Rows
variable {A : Type} [DecidableEq A]

/-- The distances of a list from what extends `done` by a part of `rest`. -/
def laterDistances (xs done : List A) : List A → List Nat
  | [] => []
  | y :: rest => editDistance xs (done ++ [y]) :: laterDistances xs (done ++ [y]) rest

variable {xs : List A}

theorem getLast?_laterDistances (done rest : List A) :
    (editDistance xs done :: laterDistances xs done rest).getLast? = some (editDistance xs (done ++ rest)) := by
  induction rest generalizing done with
  | nil => rw [laterDistances, List.getLast?_singleton, List.append_nil]
  | cons y rest ih => rw [laterDistances, List.getLast?_cons_cons, ih, List.append_assoc, List.singleton_append]

theorem laterDistances_nil (done rest : List A) : laterDistances [] done rest = List.range' (done.length + 1) rest.length := by
  induction rest generalizing done with
  | nil => rfl
  | cons y rest ih =>
    rw [laterDistances, ih, editDistance_nil_left, List.length_append, List.length_singleton, List.length_cons,
      List.range'_succ]

end Rows
end StockContent.Text
