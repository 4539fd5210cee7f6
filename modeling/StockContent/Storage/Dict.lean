import StockContent.Storage.Table
import Mathlib.Data.List.Dedup
import Mathlib.Data.List.Induction

/-! Dictionaries as tables of pairs. A value that is set replaces the one under its key; `groupBy` collects values under
their keys, as a `defaultdict(list)` does. -/
namespace StockContent.Storage

namespace Table
variable {R K : Type} {key : R → K} [DecidableEq K]

/-- Store the row, in the place of the one under its key if there is one. -/
def put (t : Table key) (r : R) : Table key := (t.insert r).getD (t.update r)

theorem get_put (t : Table key) (r : R) (k : K) : (t.put r).get k = if key r = k then some r else t.get k := by
  rw [put]
  cases h : t.insert r with
  | some u => rw [Option.getD_some, get_insert h]
  | none =>
    rw [Option.getD_none]
    obtain ⟨q, hq⟩ := Option.ne_none_iff_exists'.mp (insert_eq_none.mp h)
    by_cases hk : key r = k
    · rw [if_pos hk, ← hk]
      exact get_update_self hq
    · rw [if_neg hk]
      exact get_update_ne t hk

theorem put_rows (t : Table key) {r : R} (h : t.get (key r) = none) : (t.put r).rows = t.rows ++ [r] := by
  rw [put]
  cases hinsert : t.insert r with
  | some u => exact (insert_eq_some hinsert).2
  | none => exact absurd h (insert_eq_none.mp hinsert)

theorem put_rows_of_get (t : Table key) {r q : R} (h : t.get (key r) = some q) :
    (t.put r).rows = t.rows.map fun q => if key q = key r then r else q := by
  have hinsert : t.insert r = none := insert_eq_none.mpr (by rw [h]; nofun)
  rw [put, hinsert]
  rfl

/-- The rows that meet a condition. -/
def keep (t : Table key) (p : R → Bool) : Table key :=
  ⟨t.rows.filter p, t.unique.sublist (List.filter_sublist.map key)⟩

/-- A row that is stored and dropped again leaves no trace. -/
theorem keep_put (t : Table key) (r : R) :
    (t.put r).keep (fun q => key q ≠ key r) = t.keep fun q => key q ≠ key r := by
  apply ext
  change (t.put r).rows.filter _ = t.rows.filter _
  cases hget : t.get (key r) with
  | none => rw [put_rows t hget, List.filter_append, List.filter_cons_of_neg (by simp), List.filter_nil, List.append_nil]
  | some q =>
    rw [put_rows_of_get t hget]
    induction t.rows with
    | nil => rfl
    | cons q rows ih =>
      by_cases hq : key q = key r
      · rw [List.map_cons, if_pos hq, List.filter_cons_of_neg (by simp), List.filter_cons_of_neg (by simp [hq]), ih]
      · rw [List.map_cons, if_neg hq, List.filter_cons_of_pos (by simp [hq]), List.filter_cons_of_pos (by simp [hq]), ih]

/-- Nothing is dropped under a key that is free. -/
theorem keep_free (t : Table key) {k : K} (h : t.get k = none) : t.keep (fun q => key q ≠ k) = t := by
  apply ext
  refine List.filter_eq_self.mpr fun q hq => decide_eq_true fun hkey => ?_
  rw [← hkey, get_of_mem hq] at h
  cases h

def putAll (t : Table key) (rows : List R) : Table key := rows.foldl put t

theorem get_putAll_of_not_mem (t : Table key) {rows : List R} {k : K} (h : k ∉ rows.map key) :
    (t.putAll rows).get k = t.get k := by
  induction rows generalizing t with
  | nil => rfl
  | cons r rows ih =>
    obtain ⟨hr, hrows⟩ := not_or.mp (mt List.mem_cons.mpr h)
    calc ((t.put r).putAll rows).get k = (t.put r).get k := ih (t.put r) hrows
      _ = t.get k := by rw [get_put, if_neg (Ne.symm hr)]

/-- A row that is the only one of its key is there afterwards. -/
theorem get_putAll_of_mem (t : Table key) {rows : List R} {r : R} (h : r ∈ rows)
    (honly : ∀ q ∈ rows, key q = key r → q = r) : (t.putAll rows).get (key r) = some r := by
  induction rows generalizing t with
  | nil => cases h
  | cons q rows ih =>
    obtain ⟨hq, hrows⟩ := List.forall_mem_cons.mp honly
    by_cases hr : r ∈ rows
    · exact ih (t.put q) hr hrows
    · obtain rfl := (List.mem_cons.mp h).resolve_right hr
      have hfree : key r ∉ rows.map key := by
        intro hmem
        obtain ⟨p, hp, hkey⟩ := List.mem_map.mp hmem
        rw [hrows p hp hkey] at hp
        exact hr hp
      calc ((t.put r).putAll rows).get (key r) = (t.put r).get (key r) := get_putAll_of_not_mem (t.put r) hfree
        _ = some r := by rw [get_put, if_pos rfl]

end Table

abbrev Dict (K V : Type) := Table (Prod.fst : K × V → K)

namespace Dict
variable {K V A : Type} [DecidableEq K]

def lookup (d : Dict K V) (k : K) : Option V := (d.get k).map Prod.snd

def set (d : Dict K V) (k : K) (v : V) : Dict K V := d.put (k, v)

theorem lookup_set (d : Dict K V) (k : K) (v : V) (j : K) :
    (d.set k v).lookup j = if k = j then some v else d.lookup j := by
  rw [lookup, set, Table.get_put]
  split <;> rfl

theorem lookup_eq_some {d : Dict K V} {k : K} {v : V} : d.lookup k = some v ↔ (k, v) ∈ d.rows := by
  rw [lookup, Option.map_eq_some_iff]
  constructor
  · rintro ⟨entry, hentry, rfl⟩
    have hk := Table.get_key hentry
    subst hk
    exact Table.mem_of_get hentry
  · intro h
    exact ⟨(k, v), Table.get_of_mem h, rfl⟩

theorem length_set (d : Dict K V) {k : K} (h : d.lookup k = none) (v : V) :
    (d.set k v).rows.length = d.rows.length + 1 := by
  have hfree : d.get k = none := Option.map_eq_none_iff.mp h
  rw [set, Table.put_rows d hfree, List.length_append, List.length_singleton]

theorem mem_set {d : Dict K V} {k : K} {v : V} {entry : K × V} (h : entry ∈ (d.set k v).rows) :
    entry = (k, v) ∨ entry ∈ d.rows := by
  have hlookup := lookup_eq_some.mpr h
  rw [lookup_set] at hlookup
  split at hlookup
  · rename_i hkey
    cases hlookup
    exact .inl (Prod.ext hkey.symm rfl)
  · exact .inr (lookup_eq_some.mp hlookup)

section GroupBy
variable (key : A → K)

def groupBy (xs : List A) : Dict K (List A) :=
  xs.foldl (fun d x => d.set (key x) ((d.lookup (key x)).getD [] ++ [x])) Table.empty

variable {key} {xs : List A} {k : K} {group : List A}

theorem lookup_groupBy (xs : List A) (k : K) :
    (groupBy key xs).lookup k = if xs.filter (key · = k) = [] then none else some (xs.filter (key · = k)) := by
  induction xs using List.reverseRecOn with
  | nil => rfl
  | append_singleton xs x ih =>
    have hlast : groupBy key (xs ++ [x]) =
        (groupBy key xs).set (key x) (((groupBy key xs).lookup (key x)).getD [] ++ [x]) := List.foldl_append
    rw [hlast, lookup_set, List.filter_append]
    by_cases hk : key x = k
    · subst hk
      rw [if_pos rfl, ih, List.filter_cons_of_pos (by simp), List.filter_nil]
      by_cases hnil : xs.filter (key · = key x) = []
      · rw [if_pos hnil, hnil]
        rfl
      · rw [if_neg hnil, if_neg (fun h => hnil (List.append_eq_nil_iff.mp h).1)]
        rfl
    · rw [if_neg hk, ih, List.filter_cons_of_neg (by simpa using hk), List.filter_nil, List.append_nil]

/-- A group holds all the values of its key, in their order. -/
theorem mem_groupBy : (k, group) ∈ (groupBy key xs).rows ↔ group = xs.filter (key · = k) ∧ group ≠ [] := by
  rw [← lookup_eq_some, lookup_groupBy]
  by_cases hnil : xs.filter (key · = k) = []
  · rw [if_pos hnil, hnil]
    exact iff_of_false nofun fun h => h.2 h.1
  · rw [if_neg hnil, Option.some_inj]
    constructor
    · rintro rfl
      exact ⟨rfl, hnil⟩
    · exact fun h => h.1.symm

theorem keys_groupBy_perm (xs : List A) : ((groupBy key xs).rows.map Prod.fst).Perm (xs.map key).dedup := by
  rw [List.perm_ext_iff_of_nodup (groupBy key xs).unique (List.nodup_dedup _)]
  intro k
  rw [List.mem_dedup, List.mem_map, List.mem_map]
  constructor
  · rintro ⟨entry, hentry, rfl⟩
    obtain ⟨hgroup, hne⟩ := mem_groupBy.mp hentry
    obtain ⟨x, hx⟩ := List.exists_mem_of_ne_nil _ hne
    rw [hgroup] at hx
    exact ⟨x, List.mem_of_mem_filter hx, by simpa using List.of_mem_filter hx⟩
  · rintro ⟨x, hx, rfl⟩
    refine ⟨(key x, xs.filter (key · = key x)), mem_groupBy.mpr ⟨rfl, ?_⟩, rfl⟩
    exact List.ne_nil_of_mem (List.mem_filter.mpr ⟨hx, by simp⟩)

/-- One more value goes to the group of its key. -/
theorem flatMap_filter_cons (x : A) (xs : List A) {ks : List K} (hn : ks.Nodup) (hx : key x ∈ ks) :
    (ks.flatMap fun k => (x :: xs).filter (key · = k)).Perm (x :: ks.flatMap fun k => xs.filter (key · = k)) := by
  induction ks with
  | nil => cases hx
  | cons k ks ih =>
    obtain ⟨hk, hks⟩ := List.nodup_cons.mp hn
    rw [List.flatMap_cons, List.flatMap_cons]
    by_cases he : key x = k
    · subst he
      have hrest : (ks.flatMap fun k => (x :: xs).filter (key · = k)) = ks.flatMap fun k => xs.filter (key · = k) := by
        apply List.flatMap_congr
        intro j hj
        have hne : key x ≠ j := fun h => hk (h ▸ hj)
        exact List.filter_cons_of_neg (by simpa using hne)
      rw [hrest, List.filter_cons_of_pos (by simp)]
      exact .refl _
    · rw [List.filter_cons_of_neg (by simpa using he)]
      have hrest := ih hks ((List.mem_cons.mp hx).resolve_left he)
      exact (hrest.append_left _).trans List.perm_middle

theorem flatMap_filter_perm {xs : List A} {ks : List K} (hn : ks.Nodup) (h : ∀ x ∈ xs, key x ∈ ks) :
    (ks.flatMap fun k => xs.filter (key · = k)).Perm xs := by
  induction xs with
  | nil =>
    have hnil : (ks.flatMap fun k => ([] : List A).filter (key · = k)) = [] := List.flatMap_eq_nil_iff.mpr fun _ _ => rfl
    rw [hnil]
  | cons x xs ih =>
    obtain ⟨hx, hxs⟩ := List.forall_mem_cons.mp h
    exact (flatMap_filter_cons x xs hn hx).trans ((ih hxs).cons x)

/-- The groups together hold every value once. -/
theorem flatMap_groupBy_perm (xs : List A) : ((groupBy key xs).rows.flatMap Prod.snd).Perm xs := by
  have hgroups : (groupBy key xs).rows.flatMap Prod.snd =
      ((groupBy key xs).rows.map Prod.fst).flatMap fun k => xs.filter (key · = k) := by
    rw [List.flatMap_map]
    apply List.flatMap_congr
    intro entry hentry
    exact (mem_groupBy.mp hentry).1
  rw [hgroups]
  refine flatMap_filter_perm (groupBy key xs).unique fun x hx => ?_
  have hkey : key x ∈ (xs.map key).dedup := List.mem_dedup.mpr (List.mem_map_of_mem hx)
  exact (keys_groupBy_perm xs).mem_iff.mpr hkey

end GroupBy
end Dict
end StockContent.Storage
