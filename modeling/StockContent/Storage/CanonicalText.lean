import Mathlib.Data.String.Basic
import StockContent.Storage.Json

/-! The text of a document with its keys in order, by which documents are hashed, sorted and told apart. -/
namespace StockContent.Storage
namespace Json

section Text

def hexDigit (n : Nat) : Char := "0123456789abcdef".toList.getD n '0'

/-- Quotes, backslashes and control characters do not stand for themselves. -/
def escaped (c : Char) : List Char :=
  if c = '"' then ['\\', '"']
  else if c = '\\' then ['\\', '\\']
  else if c = '\n' then ['\\', 'n']
  else if c = '\r' then ['\\', 'r']
  else if c = '\t' then ['\\', 't']
  else if c = '\x0c' then ['\\', 'f']
  else if c = '\x08' then ['\\', 'b']
  else if c < ' ' then ['\\', 'u', '0', '0', hexDigit (c.toNat / 16), hexDigit (c.toNat % 16)]
  else [c]

def quoted (s : String) : List Char := '"' :: s.toList.flatMap escaped ++ ['"']

-- The text of a number with a fraction or an exponent.
variable (floatText : Rat → String)

mutual
def chars : Json → List Char
  | .null => "null".toList
  | .bool b => (if b then "true" else "false").toList
  | .int n => (toString n).toList
  | .float q => (floatText q).toList
  | .str s => quoted s
  | .arr items => '[' :: [','].intercalate (itemChars items) ++ [']']
  | .obj fields => '\x7b' :: [','].intercalate (fieldChars fields) ++ ['\x7d']
def itemChars : List Json → List (List Char)
  | [] => []
  | v :: vs => v.chars :: itemChars vs
def fieldChars : List (String × Json) → List (List Char)
  | [] => []
  | (k, v) :: rest => (quoted k ++ ':' :: v.chars) :: fieldChars rest
end

/-- `canonical_json`. -/
def canonicalText (v : Json) : String := String.ofList (chars floatText v.canonical)

theorem itemChars_eq_map (items : List Json) : itemChars floatText items = items.map (chars floatText) := by
  induction items with
  | nil => rfl
  | cons v vs ih => rw [itemChars, ih, List.map_cons]

theorem fieldChars_eq_map (fields : List (String × Json)) :
    fieldChars floatText fields = fields.map fun f => quoted f.1 ++ ':' :: f.2.chars floatText := by
  induction fields with
  | nil => rfl
  | cons f fs ih => rw [fieldChars, ih, List.map_cons]

variable {floatText}

theorem canonicalText_eq_iff {v w : Json} :
    canonicalText floatText v = canonicalText floatText w ↔ v.canonical.chars floatText = w.canonical.chars floatText :=
  ⟨fun h => String.ofList_injective h, fun h => congrArg String.ofList h⟩

/-- The text of a list is made of the texts of its items. -/
theorem canonicalText_arr {xs ys : List Json}
    (h : xs.map (canonicalText floatText) = ys.map (canonicalText floatText)) :
    canonicalText floatText (.arr xs) = canonicalText floatText (.arr ys) := by
  have hchars (zs : List Json) : (canonicalItems zs).map (chars floatText) =
      (zs.map (canonicalText floatText)).map String.toList := by
    induction zs with
    | nil => rfl
    | cons z zs ih =>
      rw [canonicalItems, List.map_cons, List.map_cons, List.map_cons, ih, canonicalText, String.toList_ofList]
  rw [canonicalText_eq_iff, canonical, canonical, chars, chars, itemChars_eq_map, itemChars_eq_map, hchars, hchars, h]

/-- The text of an object is made of its keys and the texts of its values. -/
theorem canonicalText_obj {fields fields' : List (String × Json)}
    (h : fields.map (fun f => (f.1, canonicalText floatText f.2)) =
      fields'.map (fun f => (f.1, canonicalText floatText f.2))) :
    canonicalText floatText (.obj fields) = canonicalText floatText (.obj fields') := by
  have hchars (fs : List (String × Json)) :
      (sortFields (canonicalFields fs)).map (fun f => quoted f.1 ++ ':' :: f.2.chars floatText) =
        ((fs.map fun f => (f.1, canonicalText floatText f.2)).insertionSort fun a b => a.1 ≤ b.1).map
          fun f => quoted f.1 ++ ':' :: f.2.toList := by
    have hvalues : (canonicalFields fs).map (fun f => (f.1, String.ofList (f.2.chars floatText))) =
        fs.map fun f => (f.1, canonicalText floatText f.2) := by
      induction fs with
      | nil => rfl
      | cons f fs ih => rw [canonicalFields, List.map_cons, List.map_cons, ih, canonicalText]
    have hsort := List.map_insertionSort (fun a b : String × Json => a.1 ≤ b.1)
      (fun a b : String × String => a.1 ≤ b.1) (fun f => (f.1, String.ofList (f.2.chars floatText)))
      (canonicalFields fs) fun _ _ _ _ => Iff.rfl
    rw [← hvalues, ← hsort, List.map_map, sortFields]
    simp only [Function.comp_def, String.toList_ofList]
  rw [canonicalText_eq_iff, canonical, canonical, chars, chars, fieldChars_eq_map, fieldChars_eq_map, hchars, hchars, h]

end Text

section Order

/-- Where texts of one length differ, the order of what starts with them is theirs. -/
theorem lt_of_append_lt (start : List Char) {xs ys rest rest' : List Char} (hlength : xs.length = ys.length)
    (hne : xs ≠ ys) (h : start ++ (xs ++ rest) < start ++ (ys ++ rest')) : xs < ys := by
  induction start with
  | cons c start ih =>
    rcases List.cons_lt_cons_iff.mp h with hlt | ⟨-, hlt⟩
    · exact absurd hlt (lt_irrefl c)
    · exact ih hlt
  | nil =>
    induction xs generalizing ys with
    | nil => exact absurd (List.length_eq_zero_iff.mp hlength.symm).symm hne
    | cons x xs ih =>
      cases ys with
      | nil => cases hlength
      | cons y ys =>
        rcases List.cons_lt_cons_iff.mp h with hlt | ⟨rfl, hlt⟩
        · exact List.cons_lt_cons_iff.mpr (.inl hlt)
        · refine List.cons_lt_cons_iff.mpr (.inr ⟨rfl, ih (Nat.succ.inj hlength) ?_ hlt⟩)
          rintro rfl
          exact hne rfl

/-- A text that stands for itself. -/
def Plain (s : String) : Prop := ∀ c ∈ s.toList, escaped c = [c]

theorem Plain.quoted {s : String} (h : Plain s) : quoted s = '"' :: (s.toList ++ ['"']) := by
  have hbody : s.toList.flatMap escaped = s.toList := by
    rw [List.flatMap_congr h, List.flatMap_singleton']
  rw [Json.quoted, hbody, List.cons_append]

theorem Plain.quoted_length {s : String} (h : Plain s) : (Json.quoted s).length = s.length + 2 := by
  simp [h.quoted, String.length_toList]

theorem Plain.quoted_inj {s t : String} (hs : Plain s) (ht : Plain t) : Json.quoted s = Json.quoted t ↔ s = t := by
  simp [hs.quoted, ht.quoted, String.toList_inj]

end Order
end Json
end StockContent.Storage
