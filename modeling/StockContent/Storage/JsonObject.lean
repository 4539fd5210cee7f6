import StockContent.Storage.Json

/-! Objects field by field: two with the same keys have one canonical form when their fields have. -/
namespace StockContent.Storage.Json

@[simp] theorem canonical_arr (items : List Json) : (arr items).canonical = .arr (items.map canonical) := by
  have hitems : canonicalItems items = items.map canonical := by
    induction items with
    | nil => rfl
    | cons v items ih => rw [canonicalItems, ih, List.map_cons]
  rw [canonical, hitems]

@[simp] theorem canonical_str (s : String) : (str s).canonical = .str s := rfl

theorem canonical_obj (fields : List (String × Json)) :
    (obj fields).canonical = .obj (sortFields (fields.map fun f => (f.1, f.2.canonical))) := by
  have hfields : canonicalFields fields = fields.map fun f => (f.1, f.2.canonical) := by
    induction fields with
    | nil => rfl
    | cons f fields ih => rw [canonicalFields, ih, List.map_cons]
  rw [canonical, hfields]

/-- Lists of the same keys, each once, in the same order, are equal where they are permutations of one another. -/
theorem eq_of_perm {fields others : List (String × Json)} (hperm : fields.Perm others)
    (hkeys : fields.map Prod.fst = others.map Prod.fst) (hnodup : (fields.map Prod.fst).Nodup) : fields = others := by
  induction fields generalizing others with
  | nil => exact hperm.nil_eq
  | cons f fields ih =>
    cases others with
    | nil => cases hkeys
    | cons g others =>
      obtain ⟨_, hrest⟩ := List.cons.inj hkeys
      obtain ⟨hfresh, hnodup⟩ := List.nodup_cons.mp hnodup
      have hfirst : f = g := by
        rcases List.mem_cons.mp (hperm.subset List.mem_cons_self) with hfg | hmem
        · exact hfg
        · refine absurd ?_ hfresh
          rw [hrest]
          exact List.mem_map_of_mem hmem
      subst hfirst
      rw [ih (List.Perm.cons_inv hperm) hrest hnodup]

/-- An object does not depend on the order its keys were written in. -/
theorem canonical_obj_of_perm {fields others : List (String × Json)} (hperm : fields.Perm others)
    (hnodup : (fields.map Prod.fst).Nodup) : (obj fields).canonical = (obj others).canonical := by
  have htrans := IsTrans.mk (r := fun a b : String × Json => a.1 ≤ b.1) fun _ _ _ => le_trans
  have htotal := Std.Total.mk (r := fun a b : String × Json => a.1 ≤ b.1) fun a b => le_total a.1 b.1
  have hkeys (fields : List (String × Json)) : (fields.map fun f => (f.1, f.2.canonical)).map Prod.fst =
    fields.map Prod.fst := by
    rw [List.map_map]
    rfl
  have hsorted (fields : List (String × Json)) : ((sortFields fields).map Prod.fst).Pairwise (· ≤ ·) :=
    List.pairwise_map.mpr (List.pairwise_insertionSort _ fields)
  have hsort (fields : List (String × Json)) : (sortFields fields).Perm fields := List.perm_insertionSort _ fields
  have hmapped := hperm.map fun f : String × Json => (f.1, f.2.canonical)
  have hboth := (hsort _).trans (hmapped.trans (hsort _).symm)
  rw [canonical_obj, canonical_obj]
  congr 1
  refine eq_of_perm hboth ?_ ?_
  · exact List.Perm.eq_of_pairwise (fun _ _ _ _ => le_antisymm) (hsorted _) (hsorted _) (hboth.map Prod.fst)
  · exact ((hsort _).map Prod.fst).nodup_iff.mpr (by rw [hkeys]; exact hnodup)

/-- The same keys in the same order, each once. -/
theorem canonical_obj_iff {fields others : List (String × Json)} (hkeys : fields.map Prod.fst = others.map Prod.fst)
    (hnodup : (fields.map Prod.fst).Nodup) : (obj fields).canonical = (obj others).canonical ↔
      fields.map (fun f => f.2.canonical) = others.map (fun f => f.2.canonical) := by
  have hsplit (fields : List (String × Json)) : fields.map (fun f => (f.1, f.2.canonical)) =
      (fields.map Prod.fst).zip (fields.map fun f => f.2.canonical) := by
    induction fields with
    | nil => rfl
    | cons f fields ih => rw [List.map_cons, List.map_cons, List.map_cons, List.zip_cons_cons, ih]
  have hfst (fields : List (String × Json)) :
      (fields.map fun f => (f.1, f.2.canonical)).map Prod.fst = fields.map Prod.fst := by
    rw [List.map_map]
    rfl
  have hsnd (fields : List (String × Json)) :
      (fields.map fun f => (f.1, f.2.canonical)).map Prod.snd = fields.map fun f => f.2.canonical := by
    rw [List.map_map]
    rfl
  rw [canonical_obj, canonical_obj, obj.injEq]
  constructor
  · intro h
    have hperm : (fields.map fun f => (f.1, f.2.canonical)).Perm (others.map fun f => (f.1, f.2.canonical)) :=
      (List.perm_insertionSort _ _).symm.trans ((List.Perm.of_eq h).trans (List.perm_insertionSort _ _))
    have heq := eq_of_perm hperm (by rw [hfst, hfst, hkeys]) (by rw [hfst]; exact hnodup)
    rw [← hsnd, ← hsnd, heq]
  · intro h
    rw [hsplit, hsplit, hkeys, h]

/-- A list of texts stands for itself. -/
theorem canonical_texts (texts : List String) : (arr (texts.map str)).canonical = .arr (texts.map str) := by
  rw [canonical_arr, List.map_map]
  rfl

theorem texts_injective {texts others : List String} (h : arr (texts.map str) = arr (others.map str)) : texts = others :=
  List.map_injective_iff.mpr (fun _ _ h => Json.str.inj h) (Json.arr.inj h)

theorem lookup_map (f : Json → Json) (fields : List (String × Json)) (key : String) :
    lookup (fields.map fun field => (field.1, f field.2)) key = (lookup fields key).map f := by
  induction fields with
  | nil => rfl
  | cons field fields ih =>
    rw [List.map_cons, lookup_cons, lookup_cons, ih]
    split <;> rfl

theorem canonical_eq_str {v : Json} {text : String} (h : v.canonical = .str text) : v = .str text := by
  cases v with
  | arr items => cases h
  | obj fields => cases h
  | _ => exact h

theorem canonical_eq_null {v : Json} (h : v.canonical = .null) : v = .null := by
  cases v with
  | arr items => cases h
  | obj fields => cases h
  | _ => exact h

theorem canonical_eq_int {v : Json} {n : Int} (h : v.canonical = .int n) : v = .int n := by
  cases v with
  | arr items => cases h
  | obj fields => cases h
  | _ => exact h

theorem canonical_eq_texts {v : Json} {texts : List String} (h : v.canonical = .arr (texts.map str)) :
    v = .arr (texts.map str) := by
  cases v with
  | arr items =>
    rw [canonical_arr, arr.injEq] at h
    rw [arr.injEq]
    induction items generalizing texts with
    | nil => exact h
    | cons item items ih =>
      cases texts with
      | nil => cases h
      | cons text texts =>
        obtain ⟨hfirst, hrest⟩ := List.cons.inj h
        rw [canonical_eq_str hfirst, ih hrest, List.map_cons]
  | _ => cases h

theorem canonical_eq_obj {v : Json} {fields : List (String × Json)} (h : v.canonical = (obj fields).canonical) :
    ∃ kept, v = .obj kept := by
  rw [canonical_obj] at h
  cases v with
  | obj kept => exact ⟨kept, rfl⟩
  | _ => cases h

theorem sortFields_map (f : Json → Json) (fields : List (String × Json)) :
    sortFields (fields.map fun field => (field.1, f field.2)) =
      (sortFields fields).map fun field => (field.1, f field.2) := by
  rw [sortFields, sortFields]
  exact (List.map_insertionSort (fun a b => a.1 ≤ b.1) (fun a b => a.1 ≤ b.1)
    (fun field : String × Json => (field.1, f field.2)) fields fun _ _ _ _ => Iff.rfl).symm

/-- Sorting by keys moves no field before another of its key. -/
theorem lookup_sortFields (fields : List (String × Json)) (key : String) :
    lookup (sortFields fields) key = lookup fields key := by
  have hinsert (field : String × Json) (others : List (String × Json)) :
      lookup (others.orderedInsert (fun a b => a.1 ≤ b.1) field) key = lookup (field :: others) key := by
    induction others with
    | nil => rfl
    | cons other others ih =>
      rw [List.orderedInsert]
      split
      · rfl
      · rename_i hlt
        have hne : field.1 ≠ other.1 := fun h => hlt (le_of_eq h)
        rw [lookup_cons, ih, lookup_cons, lookup_cons, lookup_cons]
        by_cases hkey : other.1 = key
        · rw [if_pos hkey, if_neg (fun h => hne (h.trans hkey.symm)), if_pos hkey]
        · rw [if_neg hkey, if_neg hkey]
  induction fields with
  | nil => rfl
  | cons field fields ih =>
    rw [sortFields, List.insertionSort_cons, hinsert, lookup_cons, lookup_cons, ← ih]
    rfl

/-- Documents that differ in the order of their keys hold the same under every key. -/
theorem lookup_of_canonical {fields others : List (String × Json)} (h : (obj fields).canonical = (obj others).canonical)
    (key : String) : (lookup fields key).map canonical = (lookup others key).map canonical := by
  rw [canonical_obj, canonical_obj, obj.injEq] at h
  rw [← lookup_map, ← lookup_sortFields, h, lookup_sortFields, lookup_map]

theorem numeric_obj (fields : List (String × Json)) :
    (obj fields).numeric = .obj (fields.map fun field => (field.1, field.2.numeric)) := by
  have hfields : numericFields fields = fields.map fun field => (field.1, field.2.numeric) := by
    induction fields with
    | nil => rfl
    | cons field fields ih => rw [numericFields, ih, List.map_cons]
  rw [numeric, hfields]

/-- Only a text compares equal to a text. -/
theorem eq_str_of_same {v : Json} {text : String} (h : v.numeric.canonical = .str text) : v = .str text := by
  cases v <;> simp_all [numeric, canonical, number?]

/-- Equal objects have the same texts under the same keys. -/
theorem lookup_text_of_same {fields others : List (String × Json)} (h : (obj fields).same (obj others) = true)
    {key text : String}
    (hfield : lookup fields key = some (.str text)) : lookup others key = some (.str text) := by
  rw [same, beq_iff_eq, numeric_obj, numeric_obj, canonical_obj, canonical_obj, obj.injEq] at h
  have hlookup := congrArg (lookup · key) h
  simp only [lookup_sortFields, lookup_map, hfield, Option.map_some] at hlookup
  cases hother : lookup others key with
  | none =>
    rw [hother] at hlookup
    cases hlookup
  | some v =>
    rw [hother, Option.map_some, Option.map_some] at hlookup
    rw [eq_str_of_same (Option.some.inj hlookup).symm]

end StockContent.Storage.Json
