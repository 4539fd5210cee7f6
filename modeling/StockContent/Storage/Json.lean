import Mathlib.Data.List.Forall2
import Mathlib.Data.List.Sort
import Mathlib.Data.Rat.Init
import Mathlib.Data.String.Basic

/-! JSON values as a document column stores them, with the key order they were
written in. `canonical` forgets that order, as a rendering with sorted keys does. -/
namespace StockContent.Storage

inductive Json where
  | null
  | bool (b : Bool)
  | int (n : Int)
  | float (q : Rat)
  | str (s : String)
  | arr (items : List Json)
  | obj (fields : List (String × Json))
  deriving Repr, Inhabited

namespace Json

mutual
def beq : Json → Json → Bool
  | .null, .null => true
  | .bool a, .bool b => a == b
  | .int a, .int b => a == b
  | .float a, .float b => a == b
  | .str a, .str b => a == b
  | .arr a, .arr b => beqItems a b
  | .obj a, .obj b => beqFields a b
  | _, _ => false
def beqItems : List Json → List Json → Bool
  | [], [] => true
  | a :: as, b :: bs => a.beq b && beqItems as bs
  | _, _ => false
def beqFields : List (String × Json) → List (String × Json) → Bool
  | [], [] => true
  | (k, a) :: as, (l, b) :: bs => k == l && a.beq b && beqFields as bs
  | _, _ => false
end

mutual
private theorem beq_iff (a b : Json) : a.beq b = true ↔ a = b := by
  cases a <;> cases b <;> simp [beq, beqItems_iff, beqFields_iff]
private theorem beqItems_iff (a b : List Json) : beqItems a b = true ↔ a = b := by
  cases a <;> cases b <;> simp [beqItems, beq_iff, beqItems_iff]
private theorem beqFields_iff (a b : List (String × Json)) : beqFields a b = true ↔ a = b := by
  rcases a with _ | ⟨⟨k, x⟩, as⟩ <;> rcases b with _ | ⟨⟨l, y⟩, bs⟩ <;>
    simp [beqFields, beq_iff, beqFields_iff]
end

instance : DecidableEq Json := fun a b => decidable_of_iff _ (beq_iff a b)

/-- Fields in key order, the first occurrence of a key before the later ones. -/
def sortFields (fields : List (String × Json)) : List (String × Json) :=
  fields.insertionSort (fun a b => a.1 ≤ b.1)

mutual
/-- The value with the keys of every object in order. -/
def canonical : Json → Json
  | .arr items => .arr (canonicalItems items)
  | .obj fields => .obj (sortFields (canonicalFields fields))
  | v => v
def canonicalItems : List Json → List Json
  | [] => []
  | v :: vs => v.canonical :: canonicalItems vs
def canonicalFields : List (String × Json) → List (String × Json)
  | [] => []
  | (k, v) :: rest => (k, v.canonical) :: canonicalFields rest
end

/-- Numbers and truth values as the numbers an untyped equality compares. -/
def number? : Json → Option Rat
  | .bool b => some (if b then 1 else 0)
  | .int n => some n
  | .float q => some q
  | _ => none

mutual
def numeric : Json → Json
  | .arr items => .arr (numericItems items)
  | .obj fields => .obj (numericFields fields)
  | v => match v.number? with
    | some q => .float q
    | none => v
def numericItems : List Json → List Json
  | [] => []
  | v :: vs => v.numeric :: numericItems vs
def numericFields : List (String × Json) → List (String × Json)
  | [] => []
  | (k, v) :: rest => (k, v.numeric) :: numericFields rest
end

/-- Equality of decoded documents: object keys are unordered and numbers
compare by value across their types. -/
def same (a b : Json) : Bool := a.numeric.canonical == b.numeric.canonical

@[simp] theorem same_self (a : Json) : a.same a = true := by simp [same]

private theorem numericFields_eq_map (fields : List (String × Json)) :
    numericFields fields = fields.map (fun f => (f.1, f.2.numeric)) := by
  induction fields with
  | nil => rfl
  | cons f fs ih => rw [numericFields, ih, List.map_cons]

theorem sortFields_numeric (fields : List (String × Json)) :
    sortFields (numericFields fields) = numericFields (sortFields fields) := by
  rw [sortFields, sortFields, numericFields_eq_map, numericFields_eq_map]
  exact (List.map_insertionSort (fun a b => a.1 ≤ b.1) (fun a b => a.1 ≤ b.1)
    (fun f : String × Json => (f.1, f.2.numeric)) fields fun _ _ _ _ => Iff.rfl).symm

mutual
/-- Reading numbers by value and ordering keys do not depend on each other. -/
theorem canonical_numeric (v : Json) : v.numeric.canonical = v.canonical.numeric := by
  cases v with
  | arr items => simp only [numeric, canonical, canonicalItems_numeric]
  | obj fields => simp only [numeric, canonical, canonicalFields_numeric, sortFields_numeric]
  | _ => simp [numeric, canonical, number?]
theorem canonicalItems_numeric (items : List Json) :
    canonicalItems (numericItems items) = numericItems (canonicalItems items) := by
  cases items with
  | nil => rfl
  | cons v vs => simp only [numericItems, canonicalItems, canonical_numeric v, canonicalItems_numeric vs]
theorem canonicalFields_numeric (fields : List (String × Json)) :
    canonicalFields (numericFields fields) = numericFields (canonicalFields fields) := by
  rcases fields with _ | ⟨⟨k, v⟩, rest⟩
  · rfl
  · simp only [numericFields, canonicalFields, canonical_numeric v, canonicalFields_numeric rest]
end

private theorem canonicalFields_eq_map (fields : List (String × Json)) :
    canonicalFields fields = fields.map (fun f => (f.1, f.2.canonical)) := by
  induction fields with
  | nil => rfl
  | cons f fs ih => rw [canonicalFields, ih, List.map_cons]

theorem sortFields_canonical (fields : List (String × Json)) :
    sortFields (canonicalFields fields) = canonicalFields (sortFields fields) := by
  rw [sortFields, sortFields, canonicalFields_eq_map, canonicalFields_eq_map]
  exact (List.map_insertionSort (fun a b => a.1 ≤ b.1) (fun a b => a.1 ≤ b.1)
    (fun f : String × Json => (f.1, f.2.canonical)) fields fun _ _ _ _ => Iff.rfl).symm

@[simp] theorem sortFields_sortFields (fields : List (String × Json)) :
    sortFields (sortFields fields) = sortFields fields := by
  have := IsTrans.mk (r := fun a b : String × Json => a.1 ≤ b.1) fun _ _ _ => le_trans
  have := Std.Total.mk (r := fun a b : String × Json => a.1 ≤ b.1) fun a b => le_total a.1 b.1
  exact (List.pairwise_insertionSort _ fields).insertionSort_eq

mutual
/-- The text of a document that was read back is the text it was read from. -/
@[simp] theorem canonical_canonical (v : Json) : v.canonical.canonical = v.canonical := by
  cases v with
  | arr items => simp only [canonical, canonicalItems_canonical]
  | obj fields =>
    simp only [canonical, ← sortFields_canonical, canonicalFields_canonical, sortFields_sortFields]
  | _ => rfl
private theorem canonicalItems_canonical (items : List Json) :
    canonicalItems (canonicalItems items) = canonicalItems items := by
  cases items with
  | nil => rfl
  | cons v vs => simp only [canonicalItems, canonical_canonical v, canonicalItems_canonical vs]
private theorem canonicalFields_canonical (fields : List (String × Json)) :
    canonicalFields (canonicalFields fields) = canonicalFields fields := by
  rcases fields with _ | ⟨⟨k, v⟩, rest⟩
  · rfl
  · simp only [canonicalFields, canonical_canonical v, canonicalFields_canonical rest]
end

/-- Documents with one text are equal. -/
theorem same_of_canonical {a b : Json} (h : a.canonical = b.canonical) : a.same b = true := by
  rw [same, canonical_numeric, canonical_numeric, h, beq_self_eq_true]

private theorem canonicalItems_numericItems (items : List Json) :
    canonicalItems (numericItems items) = items.map (fun v => v.numeric.canonical) := by
  induction items with
  | nil => rfl
  | cons v vs ih => rw [numericItems, canonicalItems, ih, List.map_cons]

/-- Lists of documents are equal item by item. -/
theorem same_arr {xs ys : List Json} :
    (arr xs).same (arr ys) = true ↔ List.Forall₂ (fun a b => a.same b = true) xs ys := by
  simp only [same, numeric, canonical, canonicalItems_numericItems, beq_iff_eq, arr.injEq]
  rw [← List.forall₂_eq_eq_eq, List.forall₂_map_left_iff, List.forall₂_map_right_iff]

/-- `{**fields, key: value}` keeps the position of a key that is already there. -/
def put (fields : List (String × Json)) (key : String) (value : Json) : List (String × Json) :=
  match fields with
  | [] => [(key, value)]
  | (k, v) :: rest => if k = key then (key, value) :: rest else (k, v) :: put rest key value

def lookup (fields : List (String × Json)) (key : String) : Option Json :=
  (fields.find? (fun f => f.1 = key)).map (·.2)

@[simp] theorem lookup_nil (key : String) : lookup [] key = none := rfl
theorem lookup_cons (k : String) (v : Json) (fields : List (String × Json)) (key : String) :
    lookup ((k, v) :: fields) key = if k = key then some v else lookup fields key := by
  by_cases h : k = key <;> simp [lookup, h]

theorem lookup_append (fields more : List (String × Json)) (key : String) :
    lookup (fields ++ more) key = (lookup fields key).or (lookup more key) := by
  induction fields with
  | nil => simp
  | cons f fields ih =>
    rw [List.cons_append, lookup_cons, lookup_cons, ih]
    split <;> simp

theorem lookup_put (fields : List (String × Json)) (k : String) (v : Json) (key : String) :
    lookup (put fields k v) key = if k = key then some v else lookup fields key := by
  induction fields with
  | nil => rw [put, lookup_cons]
  | cons f fields ih =>
    obtain ⟨k', v'⟩ := f
    rw [put]
    split
    · rename_i hk
      subst hk
      simp only [lookup_cons]
      split <;> rfl
    · rename_i hk
      rw [lookup_cons, lookup_cons, ih]
      split
      · rename_i hk'
        rw [if_neg (fun h => hk (hk'.trans h.symm))]
      · rfl

/-- `str(value)`, where `text` is the text of a value that is no string. -/
def strOf (text : Json → String) : Json → String
  | .str s => s
  | v => text v

/-- `str(value or "")`: empty values count as absent. -/
def orText (text : Json → String) : Option Json → String
  | none | some .null | some (.bool false) | some (.int 0) | some (.arr []) | some (.obj []) => ""
  | some (.float q) => if q = 0 then "" else text (.float q)
  | some (.str s) => s
  | some v => text v

@[simp] theorem orText_str (text : Json → String) (s : String) : orText text (some (.str s)) = s := rfl

example : (obj [("b", int 1), ("a", bool true)]).same (obj [("a", int 1), ("b", float 1)]) = true := by
  decide

end Json
end StockContent.Storage
