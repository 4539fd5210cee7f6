import StockContent.Storage.JsonObject
import StockContent.Storage.Machine
import StockContent.Text.Matches

/-! Values that are kept for good lose what may be a credential. -/
namespace StockContent.Identity
open Storage Text

/-- A value that a snapshot is built with, an array being a list or a tuple. What is no JSON is shown to a digest as a
document of its own; the redaction goes on with its content (of a set, a record) or leaves it as it is. -/
inductive Value where
  | null
  | bool (b : Bool)
  | int (n : Int)
  | float (q : Rat)
  | str (s : String)
  | arr (items : List Value)
  | obj (fields : List (String × Value))
  | foreign (shown : Json)
  | projected (shown : Json) (content : Value)

namespace Value

mutual
/-- What `canonical_json` makes of a value, up to the order of keys. -/
def shown : Value → Json
  | .null => .null
  | .bool b => .bool b
  | .int n => .int n
  | .float q => .float q
  | .str s => .str s
  | .arr items => .arr (shownItems items)
  | .obj fields => .obj (shownFields fields)
  | .foreign shown => shown
  | .projected shown _ => shown
def shownItems : List Value → List Json
  | [] => []
  | v :: items => v.shown :: shownItems items
def shownFields : List (String × Value) → List (String × Json)
  | [] => []
  | (key, v) :: fields => (key, v.shown) :: shownFields fields
end

mutual
/-- What a JSON column keeps of a value; there is none where the value is no JSON. -/
def column : Value → Option Json
  | .null => some .null
  | .bool b => some (.bool b)
  | .int n => some (.int n)
  | .float q => some (.float q)
  | .str s => some (.str s)
  | .arr items => (columnItems items).map .arr
  | .obj fields => (columnFields fields).map .obj
  | .foreign _ => none
  | .projected _ _ => none
def columnItems : List Value → Option (List Json)
  | [] => some []
  | v :: items => do
    let kept ← v.column
    let rest ← columnItems items
    return kept :: rest
def columnFields : List (String × Value) → Option (List (String × Json))
  | [] => some []
  | (key, v) :: fields => do
    let kept ← v.column
    let rest ← columnFields fields
    return (key, kept) :: rest
end

def text : Option String → Value
  | none => .null
  | some s => .str s

def texts (xs : List String) : Value := .arr (xs.map .str)

def textFields (fields : List (String × String)) : Value := .obj (fields.map fun f => (f.1, .str f.2))

mutual
theorem column_shown {v : Value} {kept : Json} (h : v.column = some kept) : v.shown = kept := by
  cases v with
  | arr items =>
    obtain ⟨rest, hrest, rfl⟩ := Option.map_eq_some_iff.mp h
    exact congrArg Json.arr (columnItems_shown hrest)
  | obj fields =>
    obtain ⟨rest, hrest, rfl⟩ := Option.map_eq_some_iff.mp h
    exact congrArg Json.obj (columnFields_shown hrest)
  | foreign _ => cases h
  | projected _ _ => cases h
  | _ => exact Option.some.inj h
theorem columnItems_shown {items : List Value} {kept : List Json} (h : columnItems items = some kept) :
    shownItems items = kept := by
  cases items with
  | nil => exact Option.some.inj h
  | cons v items =>
    obtain ⟨first, hfirst, h⟩ := Option.bind_eq_some_iff.mp h
    obtain ⟨rest, hrest, h⟩ := Option.bind_eq_some_iff.mp h
    cases h
    rw [shownItems, column_shown hfirst, columnItems_shown hrest]
theorem columnFields_shown {fields : List (String × Value)} {kept : List (String × Json)}
    (h : columnFields fields = some kept) : shownFields fields = kept := by
  cases fields with
  | nil => exact Option.some.inj h
  | cons f fields =>
    obtain ⟨first, hfirst, h⟩ := Option.bind_eq_some_iff.mp h
    obtain ⟨rest, hrest, h⟩ := Option.bind_eq_some_iff.mp h
    cases h
    rw [shownFields, column_shown hfirst, columnFields_shown hrest]
end

end Value

structure SplitUrl where
  scheme : List Char
  netloc : List Char
  path : List Char

inductive RedactionError where
  | valueError (message : String)
  deriving DecidableEq

/-- Word characters and the parts of an address depend on the version of the language. -/
structure RedactionTables extends CharTables where
  isWord : Char → Bool
  lower : String → String
  urlsplit : String → Except RedactionError SplitUrl

section Patterns
variable (tables : RedactionTables)

/-- A small letter, in whatever case: a few characters besides its capital have it as theirs. -/
def letter (c : Char) : Regex := .one fun d => d = c || (!d.isLower && (d = c.toUpper || (c = 'k' && d = '\u212a') ||
  (c = 's' && d = 'ſ') || (c = 'i' && (d = 'İ' || d = 'ı'))))

/-- A text of small letters and of characters without case. -/
def anyCase (text : String) : Regex :=
  .sequence (text.toList.map fun c => if c.isLower then letter c else .char c)

/-- Letters of another alphabet that have a letter of ours in another case. -/
def foreignLetters : List Char := ['\u212a', 'ſ', 'İ', 'ı']

theorem within_letter {p : Char → Bool} {c : Char} (hc : p c = true) (hupper : p c.toUpper = true)
    (hforeign : foreignLetters.all p = true) : (letter c).Within fun d => p d = true := by
  intro d hd
  have hother := List.all_eq_true.mp hforeign
  simp only [Bool.or_eq_true, Bool.and_eq_true, decide_eq_true_eq] at hd
  rcases hd with rfl | ⟨_, ((rfl | ⟨_, rfl⟩) | ⟨_, rfl⟩) | ⟨_, rfl | rfl⟩⟩
  · exact hc
  · exact hupper
  · exact hother _ (by simp [foreignLetters])
  · exact hother _ (by simp [foreignLetters])
  · exact hother _ (by simp [foreignLetters])
  · exact hother _ (by simp [foreignLetters])

theorem within_anyCase {p : Char → Bool} {text : String} (h : (text.toList.all fun c => p c && p c.toUpper) = true)
    (hforeign : foreignLetters.all p = true) : (anyCase text).Within fun c => p c = true := by
  have hletters (letters : List Char) (h : (letters.all fun c => p c && p c.toUpper) = true) :
      (Regex.sequence (letters.map fun c => if c.isLower then letter c else .char c)).Within fun c => p c = true := by
    induction letters with
    | nil => trivial
    | cons c letters ih =>
      obtain ⟨hfirst, hrest⟩ := Bool.and_eq_true_iff.mp h
      obtain ⟨hc, hupper⟩ := Bool.and_eq_true_iff.mp hfirst
      refine ⟨?_, ih hrest⟩
      dsimp only
      split
      · exact within_letter hc hupper hforeign
      · exact fun d hd => of_decide_eq_true hd ▸ hc
  exact hletters text.toList h

def separator : Regex := .option (.oneOf " _-")

/-- `authorization|cookie|storage[ _-]?state|secret|token|password|api[ _-]?key|signed`. -/
def sensitiveKey : Regex := .choice
  [anyCase "authorization", anyCase "cookie", .sequence [anyCase "storage", separator, anyCase "state"],
    anyCase "secret", anyCase "token", anyCase "password", .sequence [anyCase "api", separator, anyCase "key"],
    anyCase "signed"]

def publicOperationalKeys : List String := ["fencing_token"]

def isSensitive (key : String) : Bool :=
  key ≠ "" && !publicOperationalKeys.contains (tables.lower key) && !(sensitiveKey.findAll key).isEmpty

/-- `\b(token|sig(?:nature)?|x-amz-(?:signature|credential)|authorization|cookie|key)=[^\s&]+`: the group begins with a
letter, so that the boundary is one after no word character. -/
def assignment : Regex := .sequence
  [.notAfter tables.isWord,
    .choice [anyCase "token", .seq (anyCase "sig") (.option (anyCase "nature")),
      .seq (anyCase "x-amz-") (.choice [anyCase "signature", anyCase "credential"]), anyCase "authorization",
      anyCase "cookie", anyCase "key"],
    .char '=', .some (.one fun c => !tables.isSpace c && c ≠ '&')]

/-- `\bbearer\s+\S+`. -/
def bearer : Regex := .sequence
  [.notAfter tables.isWord, anyCase "bearer", .some (.one tables.isSpace), .some (.one fun c => !tables.isSpace c)]

def redacted : String := "<redacted>"

/-- `urlunsplit` of an address with a scheme and a host, without its query and its fragment. -/
def urlunsplit (url : SplitUrl) : List Char :=
  let path := if url.path ≠ [] && url.path.head? ≠ some '/' then '/' :: url.path else url.path
  url.scheme ++ ':' :: '/' :: '/' :: (url.netloc ++ path)

def redactText (value : String) : Except RedactionError String := do
  let parsed ← tables.urlsplit value
  return String.ofList (if parsed.scheme ≠ [] && parsed.netloc ≠ [] then urlunsplit parsed
    else (assignment tables).sub (fun found => found.takeWhile (· ≠ '=') ++ '=' :: redacted.toList)
      ((bearer tables).sub (fun _ => "Bearer <redacted>".toList) value.toList))

/-- A text stays one: nothing that is redacted becomes empty. -/
theorem redactText_ne_empty {value kept : String} (hvalue : value ≠ "") (h : redactText tables value = .ok kept) :
    kept ≠ "" := by
  obtain ⟨parsed, _, h⟩ := bind_eq_ok.mp h
  cases h
  have hchars : value.toList ≠ [] := fun hnil => hvalue (String.toList_eq_nil_iff.mp hnil)
  refine fun hempty => ?_
  have hnil := congrArg String.toList hempty
  rw [String.toList_ofList] at hnil
  split at hnil
  · exact List.cons_ne_nil _ _ (List.append_eq_nil_iff.mp hnil).2
  · refine Regex.sub_ne_nil (fun found hnil => ?_) (Regex.sub_ne_nil (fun _ => by decide) hchars) hnil
    exact List.cons_ne_nil _ _ (List.append_eq_nil_iff.mp hnil).2

end Patterns

section Redaction
variable (tables : RedactionTables)

mutual
/-- `redact_for_serialization`. -/
def redact : Value → Except RedactionError Value
  | .str s => (redactText tables s).map .str
  | .arr items => (redactItems items).map .arr
  | .obj fields => (redactFields fields).map .obj
  | .projected _ content => redact content
  | v => .ok v
def redactItems : List Value → Except RedactionError (List Value)
  | [] => .ok []
  | v :: items => do
    let kept ← redact v
    let rest ← redactItems items
    return kept :: rest
def redactFields : List (String × Value) → Except RedactionError (List (String × Value))
  | [] => .ok []
  | (key, v) :: fields =>
    if isSensitive tables key then (redactFields fields).map ((key, .str redacted) :: ·)
    else do
      let kept ← redact v
      let rest ← redactFields fields
      return (key, kept) :: rest
end

end Redaction
end StockContent.Identity
