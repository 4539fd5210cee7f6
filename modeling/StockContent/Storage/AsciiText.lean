import Mathlib.Algebra.GroupWithZero.Nat
import Mathlib.Algebra.Order.BigOperators.Group.List
import Mathlib.Algebra.Order.Group.Nat
import StockContent.Storage.CanonicalText

/-! The text of a document with other than printable ASCII characters escaped, next to its text
with them kept. -/
namespace StockContent.Storage
namespace Json

section Escape

/-- `\uXXXX`. -/
def unicodeEscape (n : Nat) : List Char :=
  ['\\', 'u', hexDigit (n / 4096 % 16), hexDigit (n / 256 % 16), hexDigit (n / 16 % 16), hexDigit (n % 16)]

/-- The last character that `ensure_ascii` leaves as it is. -/
def lastKept : Nat := 0x7e

/-- Characters beyond the first plane are written as two surrogates. -/
def asciiEscaped (c : Char) : List Char :=
  if c.toNat ≤ lastKept then escaped c
  else if c.toNat < 0x10000 then unicodeEscape c.toNat
  else unicodeEscape (0xd800 + (c.toNat - 0x10000) / 1024) ++ unicodeEscape (0xdc00 + (c.toNat - 0x10000) % 1024)

def asciiQuoted (s : String) : List Char := '"' :: s.toList.flatMap asciiEscaped ++ ['"']

/-- A text without characters that `ensure_ascii` escapes for not being printable ASCII. -/
def Ascii (s : String) : Prop := ∀ c ∈ s.toList, c.toNat ≤ lastKept

instance (s : String) : Decidable (Ascii s) :=
  decidable_of_iff (s.toList.all (fun c => decide (c.toNat ≤ lastKept)) = true) (by simp [Ascii])

theorem escaped_wide {c : Char} (h : lastKept < c.toNat) : escaped c = [c] := by
  have hne (d : Char) (hd : d.toNat ≤ lastKept) : c ≠ d := fun he => absurd (he ▸ h) (not_lt.mpr hd)
  have hspace : ¬ c < ' ' := fun hlt => absurd (lt_of_lt_of_le h (Nat.le_of_lt (Char.lt_def.mp hlt))) (by decide)
  simp only [escaped, if_neg (hne '"' (by decide)), if_neg (hne '\\' (by decide)), if_neg (hne '\n' (by decide)),
    if_neg (hne '\r' (by decide)), if_neg (hne '\t' (by decide)), if_neg (hne '\x0c' (by decide)),
    if_neg (hne '\x08' (by decide)), if_neg hspace]

/-- An escaped character is longer than one that is kept. -/
theorem length_escaped (c : Char) :
    (escaped c).length ≤ (asciiEscaped c).length ∧
      ((escaped c).length = (asciiEscaped c).length → c.toNat ≤ lastKept) := by
  by_cases h : c.toNat ≤ lastKept
  · rw [asciiEscaped, if_pos h]
    exact ⟨le_rfl, fun _ => h⟩
  · rw [escaped_wide (not_le.mp h), asciiEscaped, if_neg h]
    split
    · exact ⟨by simp [unicodeEscape], fun hlength => by simp [unicodeEscape] at hlength⟩
    · exact ⟨by simp [unicodeEscape], fun hlength => by simp [unicodeEscape] at hlength⟩

/-- Sums of what is never more on one side are equal only term by term. -/
theorem sum_le_sum_and_eq {A : Type} {f g : A → Nat} {xs : List A} (h : ∀ x ∈ xs, f x ≤ g x) :
    (xs.map f).sum ≤ (xs.map g).sum ∧ ((xs.map f).sum = (xs.map g).sum → ∀ x ∈ xs, f x = g x) := by
  induction xs with
  | nil => exact ⟨le_rfl, fun _ => List.forall_mem_nil _⟩
  | cons x xs ih =>
    obtain ⟨hx, hxs⟩ := List.forall_mem_cons.mp h
    obtain ⟨hle, heq⟩ := ih hxs
    simp only [List.map_cons, List.sum_cons, List.forall_mem_cons]
    exact ⟨by omega, fun hsum => ⟨by omega, heq (by omega)⟩⟩

theorem length_quoted (s : String) :
    (quoted s).length ≤ (asciiQuoted s).length ∧ ((quoted s).length = (asciiQuoted s).length → Ascii s) := by
  obtain ⟨hle, heq⟩ := sum_le_sum_and_eq fun c (_ : c ∈ s.toList) => (length_escaped c).1
  simp only [quoted, asciiQuoted, List.length_cons, List.length_append, List.length_flatMap]
  refine ⟨by simpa using hle, fun hlength c hc => (length_escaped c).2 (heq (by simpa using hlength) c hc)⟩

theorem asciiQuoted_eq {s : String} (h : Ascii s) : asciiQuoted s = quoted s := by
  have hbody : s.toList.flatMap asciiEscaped = s.toList.flatMap escaped :=
    List.flatMap_congr fun c hc => by rw [asciiEscaped, if_pos (h c hc)]
  rw [asciiQuoted, quoted, hbody]

end Escape

section Rendered

-- How a string is written, and a number with a fraction or an exponent.
variable (quote quote' : String → List Char) (floatText : Rat → String)

mutual
/-- `chars` by a way to write strings. -/
def rendered : Json → List Char
  | .null => "null".toList
  | .bool b => (if b then "true" else "false").toList
  | .int n => (toString n).toList
  | .float q => (floatText q).toList
  | .str s => quote s
  | .arr items => '[' :: [','].intercalate (renderedItems items) ++ [']']
  | .obj fields => '\x7b' :: [','].intercalate (renderedFields fields) ++ ['\x7d']
def renderedItems : List Json → List (List Char)
  | [] => []
  | v :: vs => rendered v :: renderedItems vs
def renderedFields : List (String × Json) → List (List Char)
  | [] => []
  | (k, v) :: rest => (quote k ++ ':' :: rendered v) :: renderedFields rest
end

mutual
/-- The strings and keys of a document. -/
def texts : Json → List String
  | .str s => [s]
  | .arr items => textsOfItems items
  | .obj fields => textsOfFields fields
  | _ => []
def textsOfItems : List Json → List String
  | [] => []
  | v :: vs => v.texts ++ textsOfItems vs
def textsOfFields : List (String × Json) → List String
  | [] => []
  | (k, v) :: rest => k :: (v.texts ++ textsOfFields rest)
end

mutual
theorem chars_eq_rendered (v : Json) : v.chars floatText = rendered quoted floatText v := by
  cases v with
  | arr items => rw [chars, rendered, itemChars_eq_rendered items]
  | obj fields => rw [chars, rendered, fieldChars_eq_rendered fields]
  | _ => simp only [chars, rendered]
theorem itemChars_eq_rendered (items : List Json) :
    itemChars floatText items = renderedItems quoted floatText items := by
  cases items with
  | nil => rfl
  | cons v vs => rw [itemChars, renderedItems, chars_eq_rendered v, itemChars_eq_rendered vs]
theorem fieldChars_eq_rendered (fields : List (String × Json)) :
    fieldChars floatText fields = renderedFields quoted floatText fields := by
  rcases fields with _ | ⟨⟨k, v⟩, rest⟩
  · rfl
  · rw [fieldChars, renderedFields, chars_eq_rendered v, fieldChars_eq_rendered rest]
end

variable {quote quote' floatText}

mutual
/-- Where strings are written the same, so is the document. -/
theorem rendered_congr (v : Json) (h : ∀ s ∈ v.texts, quote s = quote' s) :
    rendered quote floatText v = rendered quote' floatText v := by
  cases v with
  | str s => exact h s (List.mem_singleton_self s)
  | arr items => rw [rendered, rendered, renderedItems_congr items h]
  | obj fields => rw [rendered, rendered, renderedFields_congr fields h]
  | _ => simp only [rendered]
theorem renderedItems_congr (items : List Json) (h : ∀ s ∈ textsOfItems items, quote s = quote' s) :
    renderedItems quote floatText items = renderedItems quote' floatText items := by
  cases items with
  | nil => rfl
  | cons v vs =>
    rw [renderedItems, renderedItems, rendered_congr v fun s hs => h s (List.mem_append_left _ hs),
      renderedItems_congr vs fun s hs => h s (List.mem_append_right _ hs)]
theorem renderedFields_congr (fields : List (String × Json)) (h : ∀ s ∈ textsOfFields fields, quote s = quote' s) :
    renderedFields quote floatText fields = renderedFields quote' floatText fields := by
  rcases fields with _ | ⟨⟨k, v⟩, rest⟩
  · rfl
  · obtain ⟨hk, hrest⟩ := List.forall_mem_cons.mp h
    rw [renderedFields, renderedFields, hk, rendered_congr v fun s hs => hrest s (List.mem_append_left _ hs),
      renderedFields_congr rest fun s hs => hrest s (List.mem_append_right _ hs)]
end

end Rendered

section Length

variable (quote quote' : String → List Char) (floatText : Rat → String)

/-- What the strings of a document add to its length. -/
def textsLength (v : List String) : Nat := (v.map fun s => (quote s).length).sum

@[simp] theorem textsLength_nil : textsLength quote [] = 0 := rfl

@[simp] theorem textsLength_cons (s : String) (ss : List String) :
    textsLength quote (s :: ss) = (quote s).length + textsLength quote ss := rfl

@[simp] theorem textsLength_append (ss ss' : List String) :
    textsLength quote (ss ++ ss') = textsLength quote ss + textsLength quote ss' := by
  simp [textsLength]

theorem length_intercalate (xs : List (List Char)) :
    ([','].intercalate xs).length = (xs.map List.length).sum + (xs.length - 1) := by
  induction xs with
  | nil => rfl
  | cons x xs ih =>
    cases xs with
    | nil => simp [List.intercalate]
    | cons y ys =>
      have hstep : [','].intercalate (x :: y :: ys) = x ++ ',' :: [','].intercalate (y :: ys) := by
        simp [List.intercalate]
      rw [hstep, List.length_append, List.length_cons, ih]
      simp only [List.map_cons, List.sum_cons, List.length_cons]
      omega

theorem length_renderedItems (items : List Json) : (renderedItems quote floatText items).length = items.length := by
  induction items with
  | nil => rfl
  | cons v vs ih => rw [renderedItems, List.length_cons, List.length_cons, ih]

theorem length_renderedFields (fields : List (String × Json)) :
    (renderedFields quote floatText fields).length = fields.length := by
  induction fields with
  | nil => rfl
  | cons field rest ih => rw [renderedFields, List.length_cons, List.length_cons, ih]

mutual
/-- Two ways to write strings make texts whose lengths differ by what they make of the strings. -/
theorem length_rendered (v : Json) :
    (rendered quote floatText v).length + textsLength quote' v.texts =
      (rendered quote' floatText v).length + textsLength quote v.texts := by
  cases v with
  | str s => simp only [rendered, texts, textsLength_cons, textsLength_nil]; omega
  | arr items =>
    have hitems := length_items items
    simp only [rendered, texts, List.length_append, List.length_cons, List.length_nil, length_intercalate,
      length_renderedItems]
    omega
  | obj fields =>
    have hfields := length_fields fields
    simp only [rendered, texts, List.length_append, List.length_cons, List.length_nil, length_intercalate,
      length_renderedFields]
    omega
  | _ => simp only [rendered, texts, textsLength_nil]
theorem length_items (items : List Json) :
    ((renderedItems quote floatText items).map List.length).sum + textsLength quote' (textsOfItems items) =
      ((renderedItems quote' floatText items).map List.length).sum + textsLength quote (textsOfItems items) := by
  cases items with
  | nil => rfl
  | cons v vs =>
    have hv := length_rendered v
    have hvs := length_items vs
    simp only [renderedItems, textsOfItems, textsLength_append, List.map_cons, List.sum_cons]
    omega
theorem length_fields (fields : List (String × Json)) :
    ((renderedFields quote floatText fields).map List.length).sum + textsLength quote' (textsOfFields fields) =
      ((renderedFields quote' floatText fields).map List.length).sum + textsLength quote (textsOfFields fields) := by
  rcases fields with _ | ⟨⟨k, v⟩, rest⟩
  · rfl
  · have hv := length_rendered v
    have hrest := length_fields rest
    simp only [renderedFields, textsOfFields, textsLength_cons, textsLength_append, List.map_cons, List.sum_cons,
      List.length_append, List.length_cons]
    omega
end

/-- The text with other than printable ASCII characters escaped is the text with them kept
exactly when there are none. -/
theorem rendered_ascii_iff (v : Json) :
    rendered asciiQuoted floatText v = rendered quoted floatText v ↔ ∀ s ∈ v.texts, Ascii s := by
  constructor
  · intro heq s hs
    have hbalance := length_rendered quoted asciiQuoted floatText v
    rw [heq, Nat.add_left_cancel_iff] at hbalance
    obtain ⟨-, hterms⟩ := sum_le_sum_and_eq fun s (_ : s ∈ v.texts) => (length_quoted s).1
    exact (length_quoted s).2 (hterms hbalance.symm s hs)
  · exact fun h => rendered_congr v fun s hs => asciiQuoted_eq (h s hs)

end Length

section Canonical

theorem mem_textsOfFields {fields : List (String × Json)} {s : String} :
    s ∈ textsOfFields fields ↔ ∃ f ∈ fields, s = f.1 ∨ s ∈ f.2.texts := by
  induction fields with
  | nil => simp [textsOfFields]
  | cons f rest ih => rw [List.exists_mem_cons_iff, ← ih, or_assoc, textsOfFields, List.mem_cons, List.mem_append]

mutual
/-- Sorting the keys leaves the strings. -/
theorem mem_texts_canonical (v : Json) {s : String} : s ∈ v.canonical.texts ↔ s ∈ v.texts := by
  cases v with
  | arr items => exact mem_textsOfItems_canonical items
  | obj fields =>
    rw [canonical, texts, texts, ← mem_textsOfFields_canonical fields, mem_textsOfFields, mem_textsOfFields]
    simp only [sortFields, List.mem_insertionSort]
  | _ => rfl
theorem mem_textsOfItems_canonical (items : List Json) {s : String} :
    s ∈ textsOfItems (canonicalItems items) ↔ s ∈ textsOfItems items := by
  cases items with
  | nil => rfl
  | cons v vs =>
    simp only [canonicalItems, textsOfItems, List.mem_append, mem_texts_canonical v, mem_textsOfItems_canonical vs]
theorem mem_textsOfFields_canonical (fields : List (String × Json)) {s : String} :
    s ∈ textsOfFields (canonicalFields fields) ↔ s ∈ textsOfFields fields := by
  rcases fields with _ | ⟨⟨k, v⟩, rest⟩
  · rfl
  · simp only [canonicalFields, textsOfFields, List.mem_cons, List.mem_append, mem_texts_canonical v,
      mem_textsOfFields_canonical rest]
end

end Canonical
end Json
end StockContent.Storage
