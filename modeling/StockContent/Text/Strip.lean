import Mathlib.Data.List.Basic
import Mathlib.Data.List.DropRight
import StockContent.Text.Regex

/-! Blanks at the ends of a text, and capitals. Lines of a text, as `splitlines` cuts them and as they are joined
again. -/
namespace StockContent.Text

section Chars
variable (tables : CharTables)

def lstripChars (text : List Char) : List Char := text.dropWhile tables.isSpace

def stripChars (text : List Char) : List Char := (lstripChars tables (lstripChars tables text).reverse).reverse

def strip (text : String) : String := String.ofList (stripChars tables text.toList)

/-- Where the blank is the only space, no letter is one. -/
theorem letter_ne_blank : ∀ c : Char, c.isAlpha → decide (c = ' ') = false := by
  intro c hc
  refine decide_eq_false ?_
  rintro rfl
  exact absurd hc (by decide)

theorem stripChars_eq (text : List Char) :
    stripChars tables text = (text.dropWhile tables.isSpace).rdropWhile tables.isSpace := rfl

/-- Nothing is left to strip. -/
@[simp] theorem strip_strip (text : String) : strip tables (strip tables text) = strip tables text := by
  have hstart (l : List Char) : ((l.dropWhile tables.isSpace).rdropWhile tables.isSpace).dropWhile tables.isSpace =
      (l.dropWhile tables.isSpace).rdropWhile tables.isSpace := by
    have hkept := List.rdropWhile_prefix tables.isSpace (l.dropWhile tables.isSpace)
    have hhead := List.dropWhile_eq_self_iff.mp (@List.dropWhile_idempotent _ tables.isSpace l)
    rw [List.dropWhile_eq_self_iff]
    intro hpos
    rw [hkept.getElem hpos]
    exact hhead _
  rw [strip, strip, String.toList_ofList, stripChars_eq, stripChars_eq, hstart, List.rdropWhile_idempotent]

def upper (text : String) : String := String.ofList (text.toList.flatMap tables.upper)

end Chars
def lineBreaks : List Char :=
  ['\n', '\r', '\x0b', '\x0c', '\x1c', '\x1d', '\x1e', '\u0085', '\u2028', '\u2029']

def isLineBreak (c : Char) : Bool := c ∈ lineBreaks

/-- `line` is what was read of the current line. A line feed that follows a carriage return belongs to its break. -/
def splitLinesFrom (afterReturn : Bool) (line : List Char) : List Char → List (List Char)
  | [] => if line = [] then [] else [line]
  | c :: rest =>
    if c = '\n' && afterReturn then splitLinesFrom false line rest
    else if isLineBreak c then line :: splitLinesFrom (c = '\r') [] rest
    else splitLinesFrom false (line ++ [c]) rest

def splitLines (text : List Char) : List (List Char) := splitLinesFrom false [] text

/-- `"\n".join(lines) + "\n"`. -/
def joinLines (lines : List (List Char)) : List Char := List.intercalate ['\n'] lines ++ ['\n']

def Unbroken (line : List Char) : Prop := ∀ c ∈ line, isLineBreak c = false

theorem Unbroken.append {line rest : List Char} (hline : Unbroken line) (hrest : Unbroken rest) :
    Unbroken (line ++ rest) := by
  intro c hc
  exact (List.mem_append.mp hc).elim (hline c) (hrest c)

theorem splitLinesFrom_unbroken {afterReturn : Bool} {line text : List Char} (h : Unbroken line) :
    ∀ part ∈ splitLinesFrom afterReturn line text, Unbroken part := by
  induction text generalizing afterReturn line with
  | nil =>
    intro part hpart
    rw [splitLinesFrom] at hpart
    split at hpart
    · cases hpart
    · rw [List.mem_singleton.mp hpart]
      exact h
  | cons c rest ih =>
    rw [splitLinesFrom]
    split
    · exact ih h
    · split
      · exact List.forall_mem_cons.mpr ⟨h, ih fun _ h => by cases h⟩
      · rename_i hbreak
        refine ih (h.append fun d hd => ?_)
        rw [List.mem_singleton.mp hd]
        exact Bool.eq_false_iff.mpr hbreak

theorem splitLines_unbroken {text line : List Char} (h : line ∈ splitLines text) : Unbroken line :=
  splitLinesFrom_unbroken (fun _ h => by cases h) line h

theorem splitLinesFrom_line {line rest : List Char} (h : Unbroken rest) (after : List Char) :
    splitLinesFrom false line (rest ++ '\n' :: after) = (line ++ rest) :: splitLinesFrom false [] after := by
  induction rest generalizing line with
  | nil =>
    rw [List.nil_append, List.append_nil, splitLinesFrom]
    rfl
  | cons c rest ih =>
    obtain ⟨hc, hrest⟩ := List.forall_mem_cons.mp h
    rw [List.cons_append, splitLinesFrom, Bool.and_false, if_neg Bool.false_ne_true, hc, if_neg Bool.false_ne_true,
      ih hrest, List.append_assoc]
    rfl

theorem joinLines_cons (line : List Char) {lines : List (List Char)} (h : lines ≠ []) :
    joinLines (line :: lines) = line ++ '\n' :: joinLines lines := by
  obtain ⟨next, rest, rfl⟩ := List.exists_cons_of_ne_nil h
  simp [joinLines, List.intercalate, List.intersperse]

/-- Joined lines are cut where they were joined. -/
theorem splitLines_joinLines {lines : List (List Char)} (h : ∀ line ∈ lines, Unbroken line) (hne : lines ≠ []) :
    splitLines (joinLines lines) = lines := by
  induction lines with
  | nil => exact absurd rfl hne
  | cons line lines ih =>
    obtain ⟨hline, hlines⟩ := List.forall_mem_cons.mp h
    by_cases hnil : lines = []
    · subst hnil
      have hjoin : joinLines [line] = line ++ '\n' :: [] := by simp [joinLines, List.intercalate]
      rw [hjoin, splitLines, splitLinesFrom_line hline, List.nil_append]
      rfl
    · rw [joinLines_cons line hnil, splitLines, splitLinesFrom_line hline, List.nil_append, ← splitLines, ih hlines hnil]

end StockContent.Text
