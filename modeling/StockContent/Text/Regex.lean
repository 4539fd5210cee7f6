import Mathlib.Data.List.Infix

/-! Regular expressions as a backtracking search reads them: the ends of a match come in the
order in which they are tried, and the first one is taken. -/
namespace StockContent.Text

/-- What a search knows of characters. Which ones are digits, blanks or have another upper
case depends on the version of the character tables; letters are never blanks. -/
structure CharTables where
  isDecimal : Char → Bool
  isSpace : Char → Bool
  upper : Char → List Char
  letters : ∀ c : Char, c.isAlpha → isSpace c = false

inductive Regex where
  | empty
  | one (p : Char → Bool)
  | seq (r s : Regex)
  | alt (r s : Regex)
  /-- Greedy, between `least` and `most` times. -/
  | rep (r : Regex) (least : Nat) (most : Option Nat)
  | notAfter (p : Char → Bool)
  | notBefore (p : Char → Bool)

/-- A place in a text: the character before it, and what follows. -/
abbrev Place := Option Char × List Char

/-- The ends of a repetition of `ends`, the longest ones first; each round has to consume. -/
def repEnds (ends : Place → List Place) (least : Nat) : Nat → Place → List Place
  | 0, place => if least = 0 then [place] else []
  | rounds + 1, place =>
    ((ends place).flatMap fun next =>
      if next.2.length < place.2.length then repEnds ends (least - 1) rounds next else []) ++
      if least = 0 then [place] else []

def Regex.ends : Regex → Place → List Place
  | .empty, place => [place]
  | .one p, (_, c :: rest) => if p c then [(some c, rest)] else []
  | .one _, (_, []) => []
  | .seq r s, place => (r.ends place).flatMap s.ends
  | .alt r s, place => r.ends place ++ s.ends place
  | .rep r least most, place => repEnds r.ends least (most.getD place.2.length) place
  | .notAfter p, place => if place.1.any p then [] else [place]
  | .notBefore p, place => if place.2.head?.any p then [] else [place]

namespace Regex

def char (c : Char) : Regex := .one (· = c)
def range (first last : Char) : Regex := .one fun c => first ≤ c && c ≤ last
def oneOf (chars : String) : Regex := .one chars.toList.contains
def word (text : String) : Regex := text.toList.foldr (fun c r => .seq (.char c) r) .empty
def sequence (rs : List Regex) : Regex := rs.foldr .seq .empty
def option (r : Regex) : Regex := .rep r 0 (some 1)
def many (r : Regex) : Regex := .rep r 0 none
def some (r : Regex) : Regex := .rep r 1 none
def times (n : Nat) (r : Regex) : Regex := .rep r n (.some n)

def choice : List Regex → Regex
  | [] => .rep .empty 1 (.some 0)
  | [r] => r
  | r :: rs => .alt r (choice rs)

/-- Matches from left to right that do not overlap, for expressions that match no empty text.
`skip` characters belong to the last match. -/
def findAllFrom (r : Regex) : Option Char → Nat → List Char → List String
  | _, _, [] => []
  | _, skip + 1, c :: rest => findAllFrom r (.some c) skip rest
  | before, 0, c :: rest =>
    match (r.ends (before, c :: rest)).head? with
    | none => findAllFrom r (.some c) 0 rest
    | .some (_, after) =>
      let length := rest.length + 1 - after.length
      String.ofList ((c :: rest).take length) :: findAllFrom r (.some c) (length - 1) rest

def findAll (r : Regex) (text : String) : List String := findAllFrom r none 0 text.toList

/-- The text with what `replace` makes of each match in its place. -/
def subFrom (r : Regex) (replace : List Char → List Char) : Option Char → Nat → List Char → List Char
  | _, _, [] => []
  | _, skip + 1, c :: rest => subFrom r replace (.some c) skip rest
  | before, 0, c :: rest =>
    match (r.ends (before, c :: rest)).head? with
    | none => c :: subFrom r replace (.some c) 0 rest
    | .some (_, after) =>
      let length := rest.length + 1 - after.length
      replace ((c :: rest).take length) ++ subFrom r replace (.some c) (length - 1) rest

def sub (r : Regex) (replace : List Char → List Char) (text : List Char) : List Char := subFrom r replace none 0 text

/-- What is put in is never empty, so that no text becomes empty. -/
theorem sub_ne_nil {r : Regex} {replace : List Char → List Char} {text : List Char} (hreplace : ∀ found, replace found ≠ [])
    (h : text ≠ []) : r.sub replace text ≠ [] := by
  obtain ⟨c, rest, rfl⟩ := List.exists_cons_of_ne_nil h
  rw [sub, subFrom]
  split
  · exact List.cons_ne_nil _ _
  · exact fun hnil => hreplace _ (List.append_eq_nil_iff.mp hnil).1

end Regex

/-- `text in other`. -/
def isIn (text other : String) : Bool := text.toList <:+: other.toList

end StockContent.Text
