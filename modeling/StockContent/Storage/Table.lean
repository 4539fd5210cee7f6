import Mathlib.Data.List.Nodup
import Mathlib.Data.List.Sort

/-! Relations with a primary key. Rows stay in insertion order and are rewritten
in place; the key constraint is part of the value, so a duplicate cannot be stored. -/
namespace StockContent.Storage

/-- Where a function tells elements apart, a query by its value finds the element alone. -/
theorem filter_of_nodup_map {A B : Type} [DecidableEq B] {f : A → B} {xs : List A} (hn : (xs.map f).Nodup)
    {x : A} (hm : x ∈ xs) : xs.filter (f · = f x) = [x] := by
  induction xs with
  | nil => cases hm
  | cons y ys ih =>
    obtain ⟨hy, hys⟩ := List.nodup_cons.mp hn
    rcases List.mem_cons.mp hm with rfl | hm
    · rw [List.filter_cons_of_pos (by simp), List.filter_eq_nil_iff.mpr]
      intro z hz he
      rw [← of_decide_eq_true he] at hy
      exact hy (List.mem_map_of_mem hz)
    · have hne : f y ≠ f x := by
        intro he
        rw [he] at hy
        exact hy (List.mem_map_of_mem hm)
      rw [List.filter_cons_of_neg (by simpa using hne), ih hys hm]

structure Table {R K : Type} (key : R → K) where
  rows : List R
  unique : (rows.map key).Nodup

namespace Table
variable {R K : Type} {key : R → K}

@[ext] theorem ext {t u : Table key} (h : t.rows = u.rows) : t = u := by
  cases t; cases u; subst h; rfl

instance [DecidableEq R] : DecidableEq (Table key) := fun t u =>
  decidable_of_iff (t.rows = u.rows) ⟨ext, fun h => h ▸ rfl⟩

def empty : Table key := ⟨[], List.nodup_nil⟩

/-- Rewrite every row by a function that leaves its key alone. -/
def rewrite (t : Table key) (f : R → R) (hf : ∀ r, key (f r) = key r) : Table key :=
  ⟨t.rows.map f, by simpa only [List.map_map, Function.comp_def, hf] using t.unique⟩

/-- The rows a query with an order and a limit returns, before locking. -/
def select (t : Table key) (p : R → Bool) (le : R → R → Bool) (limit : Nat) : List R :=
  ((t.rows.filter p).insertionSort (fun a b => le a b)).take limit

theorem mem_select {t : Table key} {p : R → Bool} {le : R → R → Bool} {limit : Nat} {r : R}
    (h : r ∈ t.select p le limit) : r ∈ t.rows ∧ p r = true := by
  have hs := List.mem_of_mem_take h
  rw [List.mem_insertionSort] at hs
  exact List.mem_filter.mp hs

theorem nodup_select (t : Table key) (p : R → Bool) (le : R → R → Bool) (limit : Nat) :
    ((t.select p le limit).map key).Nodup := by
  have hfilter : ((t.rows.filter p).map key).Nodup := t.unique.sublist (List.filter_sublist.map key)
  have hsort := ((List.perm_insertionSort (fun a b => le a b) (t.rows.filter p)).map key).nodup_iff.mpr hfilter
  exact hsort.sublist ((List.take_sublist limit _).map key)

/-- A limit of the size of the relation leaves nothing out. -/
theorem select_all (t : Table key) (p : R → Bool) (le : R → R → Bool) :
    t.select p le t.rows.length = (t.rows.filter p).insertionSort (fun a b => le a b) := by
  refine List.take_of_length_le ?_
  rw [List.length_insertionSort]
  exact List.length_filter_le p t.rows

theorem mem_select_all {t : Table key} {p : R → Bool} {le : R → R → Bool} {r : R} :
    r ∈ t.select p le t.rows.length ↔ r ∈ t.rows ∧ p r = true := by
  rw [select_all, List.mem_insertionSort, List.mem_filter]

/-- A query without a limit depends on the rows it is about, not on where they are stored. -/
theorem select_all_perm {t u : Table key} {p : R → Bool} (le : R → R → Bool)
    (hp : (t.rows.filter p).Perm (u.rows.filter p)) (htotal : ∀ a b, le a b ∨ le b a)
    (htrans : ∀ a b c, le a b → le b c → le a c) (hkey : ∀ a b, le a b → le b a → key a = key b) :
    t.select p le t.rows.length = u.select p le u.rows.length := by
  have : Std.Total fun a b : R => le a b = true := ⟨htotal⟩
  have : IsTrans R fun a b : R => le a b = true := ⟨htrans⟩
  rw [select_all, select_all]
  have hsorted := List.perm_insertionSort (fun a b => le a b) (t.rows.filter p)
  have hsorted' := List.perm_insertionSort (fun a b => le a b) (u.rows.filter p)
  refine List.Perm.eq_of_pairwise (fun a b ha hb hab hba => ?_) (List.pairwise_insertionSort _ _)
    (List.pairwise_insertionSort _ _) ((hsorted.trans hp).trans hsorted'.symm)
  have hma := List.mem_of_mem_filter (hp.mem_iff.mp (hsorted.mem_iff.mp ha))
  have hmb := List.mem_of_mem_filter (hsorted'.mem_iff.mp hb)
  exact List.inj_on_of_nodup_map u.unique hma hmb (hkey a b hab hba)

/-- A stored row whose key a query returned is the row it returned. -/
theorem select_of_key {t : Table key} {p : R → Bool} {le : R → R → Bool} {limit : Nat} {r : R}
    (hm : r ∈ t.rows) (h : key r ∈ (t.select p le limit).map key) :
    r ∈ t.select p le limit ∧ p r = true := by
  obtain ⟨q, hq, he⟩ := List.mem_map.mp h
  obtain ⟨hmq, hp⟩ := mem_select hq
  obtain rfl := List.inj_on_of_nodup_map t.unique hmq hm he
  exact ⟨hq, hp⟩

variable [DecidableEq K]

def get (t : Table key) (k : K) : Option R := t.rows.find? (fun r => key r = k)

theorem get_key {t : Table key} {k : K} {r : R} (h : t.get k = some r) : key r = k := by
  simpa using List.find?_some h

theorem mem_of_get {t : Table key} {k : K} {r : R} (h : t.get k = some r) : r ∈ t.rows :=
  List.mem_of_find?_eq_some h

/-- The key constraint makes a lookup return the very row that is stored. -/
theorem get_of_mem {t : Table key} {r : R} (h : r ∈ t.rows) : t.get (key r) = some r := by
  obtain ⟨rows, unique⟩ := t
  simp only [get] at h ⊢
  induction rows with
  | nil => cases h
  | cons a rows ih =>
    obtain ⟨ha, hu⟩ := List.nodup_cons.mp unique
    rcases List.mem_cons.mp h with rfl | h
    · simp
    · have hne : key a ≠ key r := fun he => ha (he ▸ List.mem_map_of_mem h)
      simpa [List.find?_cons, hne] using ih hu h

theorem get_eq_none {t : Table key} {k : K} : t.get k = none ↔ k ∉ t.rows.map key := by
  simp [get]

@[simp] theorem get_rewrite (t : Table key) (f : R → R) (hf : ∀ r, key (f r) = key r) (k : K) :
    (t.rewrite f hf).get k = (t.get k).map f := by
  simp only [get, rewrite, List.find?_map, Function.comp_def, hf]

/-- Rewrite the row stored under one key, if there is one. -/
def modify (t : Table key) (k : K) (f : R → R) (hf : ∀ r, key (f r) = key r := by intro _; rfl) :
    Table key :=
  t.rewrite (fun r => if key r = k then f r else r) (by intro r; split <;> simp [hf])

@[simp] theorem get_modify_self (t : Table key) (k : K) (f : R → R) (hf : ∀ r, key (f r) = key r) :
    (t.modify k f hf).get k = (t.get k).map f := by
  rw [modify, get_rewrite]
  cases h : t.get k with
  | none => rfl
  | some r => simp [get_key h]

@[simp] theorem get_modify_ne (t : Table key) {k j : K} (f : R → R) (hf : ∀ r, key (f r) = key r)
    (h : j ≠ k) : (t.modify k f hf).get j = t.get j := by
  rw [modify, get_rewrite]
  cases hj : t.get j with
  | none => rfl
  | some r => simp [get_key hj, h]

theorem modify_modify (t : Table key) (k : K) {f g : R → R} (hf : ∀ r, key (f r) = key r)
    (hg : ∀ r, key (g r) = key r) :
    (t.modify k f hf).modify k g hg = t.modify k (fun r => g (f r)) (fun r => by rw [hg, hf]) := by
  apply ext
  simp only [modify, rewrite, List.map_map]
  refine List.map_congr_left fun r _ => ?_
  by_cases hk : key r = k <;> simp [hk, hf]

/-- Rewrite every row whose key a query returned. -/
def modifyEach (t : Table key) (ks : List K) (f : R → R) (hf : ∀ r, key (f r) = key r := by intro _; rfl) :
    Table key :=
  t.rewrite (fun r => if key r ∈ ks then f r else r) (by intro r; split <;> simp [hf])

theorem get_modifyEach (t : Table key) (ks : List K) (f : R → R) (hf : ∀ r, key (f r) = key r) (k : K) :
    (t.modifyEach ks f hf).get k = (t.get k).map fun r => if k ∈ ks then f r else r := by
  rw [modifyEach, get_rewrite]
  cases h : t.get k with
  | none => rfl
  | some r => simp [get_key h]

/-- Store a new version of the row under its key, if there is one. -/
def update (t : Table key) (r : R) : Table key :=
  t.rewrite (fun q => if key q = key r then r else q) (by intro q; split <;> simp [*])

theorem get_update_self {t : Table key} {q r : R} (h : t.get (key r) = some q) :
    (t.update r).get (key r) = some r := by
  rw [update, get_rewrite, h, Option.map_some, if_pos (get_key h)]

/-- A new version of one row leaves the others alone. -/
theorem get_update_ne (t : Table key) {r : R} {k : K} (h : key r ≠ k) : (t.update r).get k = t.get k := by
  rw [update, get_rewrite]
  cases hk : t.get k with
  | none => rfl
  | some q => rw [Option.map_some, if_neg (by rw [get_key hk]; exact h.symm)]

/-- Add a row unless its key is taken: the constraint rejects the duplicate. -/
def insert (t : Table key) (r : R) : Option (Table key) :=
  if h : key r ∈ t.rows.map key then none
  else some ⟨t.rows ++ [r], by
    rw [List.map_append, List.nodup_append]
    refine ⟨t.unique, by simp, ?_⟩
    rintro a ha b hb rfl
    exact h (by simpa [List.mem_singleton.mp hb] using ha)⟩

theorem insert_eq_some {t u : Table key} {r : R} (h : t.insert r = some u) :
    t.get (key r) = none ∧ u.rows = t.rows ++ [r] := by
  unfold insert at h
  split at h
  · cases h
  · rename_i hk
    cases h
    exact ⟨get_eq_none.mpr hk, rfl⟩

theorem get_insert {t u : Table key} {r : R} (h : t.insert r = some u) (k : K) :
    u.get k = if key r = k then some r else t.get k := by
  obtain ⟨hn, hu⟩ := insert_eq_some h
  rw [get, hu, List.find?_append]
  change (t.get k).or _ = _
  by_cases hk : key r = k
  · subst hk
    simp [hn]
  · cases t.get k <;> simp [hk]

theorem insert_eq_none {t : Table key} {r : R} : t.insert r = none ↔ t.get (key r) ≠ none := by
  rw [insert]
  split
  · rename_i h
    simpa [get_eq_none] using h
  · rename_i h
    simpa [get_eq_none] using h

/-- `ON CONFLICT DO NOTHING`: a taken key keeps its row. -/
theorem get_insert_getD (t : Table key) (r : R) (k : K) :
    ((t.insert r).getD t).get k = (t.get k).or (if key r = k then some r else none) := by
  cases h : t.insert r with
  | some u =>
    rw [Option.getD_some, get_insert h]
    by_cases hk : key r = k
    · subst hk
      simp [(insert_eq_some h).1]
    · simp [hk]
  | none =>
    rw [Option.getD_none]
    have hn := insert_eq_none.mp h
    by_cases hk : key r = k
    · subst hk
      cases hg : t.get (key r) with
      | none => exact absurd hg hn
      | some q => simp
    · simp [hk]

/-- Every stored row satisfies a predicate. -/
def All (P : R → Prop) (t : Table key) : Prop := ∀ k r, t.get k = some r → P r

theorem All.of_mem {P : R → Prop} {t : Table key} (h : t.All P) {r : R} (hr : r ∈ t.rows) : P r :=
  h _ _ (get_of_mem hr)

/-- What a write may do to a relation: stored rows stay and change along `rel`,
and rows under a key that was free are `fresh`. -/
structure Evolves (fresh : R → Prop) (rel : R → R → Prop) (t u : Table key) : Prop where
  old : ∀ k r, t.get k = some r → ∃ r', u.get k = some r' ∧ rel r r'
  new : ∀ k r', t.get k = none → u.get k = some r' → fresh r'

section Evolution
variable {fresh : R → Prop} {rel : R → R → Prop} {t u : Table key}

theorem Evolves.refl (hr : ∀ r, rel r r) (t : Table key) : Evolves fresh rel t t :=
  ⟨fun _ r h => ⟨r, h, hr r⟩, fun _ _ hn hs => by rw [hn] at hs; cases hs⟩

theorem Evolves.rewrite (t : Table key) {f : R → R} (hf : ∀ r, key (f r) = key r)
    (h : ∀ r ∈ t.rows, rel r (f r)) : Evolves fresh rel t (t.rewrite f hf) := by
  refine ⟨fun k r hk => ⟨f r, by simp [hk], h r (mem_of_get hk)⟩, fun k r hn hs => ?_⟩
  simp [hn] at hs

theorem Evolves.modify_rows (t : Table key) {k : K} {f : R → R} (hf : ∀ r, key (f r) = key r)
    (h : ∀ r ∈ t.rows, rel r (if key r = k then f r else r)) : Evolves fresh rel t (t.modify k f hf) :=
  .rewrite t _ h

theorem Evolves.modifyEach_rows (t : Table key) {ks : List K} {f : R → R} (hf : ∀ r, key (f r) = key r)
    (h : ∀ r ∈ t.rows, rel r (if key r ∈ ks then f r else r)) :
    Evolves fresh rel t (t.modifyEach ks f hf) :=
  .rewrite t _ h

theorem Evolves.modify (t : Table key) {k : K} {f : R → R} (hf : ∀ r, key (f r) = key r)
    (hr : ∀ r, rel r r) (h : ∀ r, t.get k = some r → rel r (f r)) :
    Evolves fresh rel t (t.modify k f hf) := by
  refine .modify_rows t hf fun r hm => ?_
  by_cases hk : key r = k
  · simpa only [if_pos hk] using h r (hk ▸ get_of_mem hm)
  · simpa only [if_neg hk] using hr r

theorem Evolves.update (t : Table key) {r : R} (hr : ∀ r, rel r r)
    (h : ∀ q, t.get (key r) = some q → rel q r) : Evolves fresh rel t (t.update r) := by
  refine .rewrite t _ fun q hm => ?_
  by_cases hk : key q = key r
  · simpa only [if_pos hk] using h q (hk ▸ get_of_mem hm)
  · simpa only [if_neg hk] using hr q

theorem Evolves.modifyEach (t : Table key) {ks : List K} {f : R → R} (hf : ∀ r, key (f r) = key r)
    (hr : ∀ r, rel r r) (h : ∀ r ∈ t.rows, key r ∈ ks → rel r (f r)) :
    Evolves fresh rel t (t.modifyEach ks f hf) := by
  refine .modifyEach_rows t hf fun r hm => ?_
  by_cases hk : key r ∈ ks
  · simpa only [if_pos hk] using h r hm hk
  · simpa only [if_neg hk] using hr r

theorem Evolves.insert {r : R} (h : t.insert r = some u) (hr : ∀ r, rel r r) (hf : fresh r) :
    Evolves fresh rel t u := by
  have hg := get_insert h
  refine ⟨fun k q hk => ⟨q, ?_, hr q⟩, fun k q hn hs => ?_⟩
  · rw [hg, if_neg, hk]
    rintro rfl
    rw [(insert_eq_some h).1] at hk
    cases hk
  · rw [hg] at hs
    split at hs
    · cases hs; exact hf
    · rw [hn] at hs; cases hs

theorem Evolves.insert_getD {r : R} (hr : ∀ r, rel r r) (hf : fresh r) :
    Evolves fresh rel t ((t.insert r).getD t) := by
  cases h : t.insert r with
  | none => exact .refl hr t
  | some u => exact .insert h hr hf

theorem Evolves.trans {v : Table key} (h : Evolves fresh rel t u) (h' : Evolves fresh rel u v)
    (hr : ∀ a b c, rel a b → rel b c → rel a c) (hf : ∀ a b, fresh a → rel a b → fresh b) :
    Evolves fresh rel t v := by
  refine ⟨fun k a hk => ?_, fun k c hn hs => ?_⟩
  · obtain ⟨b, hb, hab⟩ := h.old k a hk
    obtain ⟨c, hc, hbc⟩ := h'.old k b hb
    exact ⟨c, hc, hr a b c hab hbc⟩
  · cases hu : u.get k with
    | none => exact h'.new k c hu hs
    | some b =>
      obtain ⟨c', hc', hbc⟩ := h'.old k b hu
      rw [hs] at hc'
      cases hc'
      exact hf b c (h.new k b hn hu) hbc

theorem Evolves.all {P : R → Prop} (h : Evolves fresh rel t u) (hf : ∀ r, fresh r → P r)
    (hr : ∀ r r', P r → rel r r' → P r') (ht : t.All P) : u.All P := by
  intro k r' hk
  cases hg : t.get k with
  | none => exact hf r' (h.new k r' hg hk)
  | some r =>
    obtain ⟨q, hq, hrel⟩ := h.old k r hg
    rw [hk] at hq
    cases hq
    exact hr r r' (ht k r hg) hrel

theorem Evolves.mono {fresh' : R → Prop} {rel' : R → R → Prop} (h : Evolves fresh rel t u)
    (hf : ∀ r, fresh r → fresh' r) (hr : ∀ r r', rel r r' → rel' r r') : Evolves fresh' rel' t u :=
  ⟨fun k r hk => (h.old k r hk).imp fun q hq => ⟨hq.1, hr r q hq.2⟩,
    fun k r hn hs => hf r (h.new k r hn hs)⟩

end Evolution
end Table
end StockContent.Storage
