import Mathlib.Data.List.TakeWhile
import StockContent.Storage.Dict
import StockContent.Text.Strip

/-! The text of a playlist: its lines, their tags and attributes, and the addresses in them. Local names go in the
place of the addresses of a line, and are the addresses of the line that results. -/
namespace StockContent.Hls
open Storage Text

abbrev Chars := List Char

/-- Visible ASCII characters are no blanks. -/
structure PlaylistTables extends CharTables where
  visible : ∀ c : Char, '!' ≤ c → c ≤ '~' → isSpace c = false

section Addresses
variable (tables : CharTables)

/-- `URI=`. -/
def uriMark : Chars := ['U', 'R', 'I', '=']

/-- The address between quotation marks, and what follows it. -/
def quotedAt (text : Chars) : Option (Chars × Chars) :=
  let value := text.tail.takeWhile (· ≠ '"')
  let after := text.tail.dropWhile (· ≠ '"')
  if text.head? = some '"' ∧ value ≠ [] ∧ after ≠ [] then some (value, after.tail) else none

def bareChar (c : Char) : Bool := c ≠ ',' && !tables.isSpace c

def bareAt (text : Chars) : Option (Chars × Chars) :=
  if text.takeWhile (bareChar tables) ≠ [] then
    some (text.takeWhile (bareChar tables), text.dropWhile (bareChar tables))
  else none

/-- A match of `URI=(?:"([^"]+)"|([^,\s]+))` at the start of the text: whether it is quoted, the address, the rest. -/
def uriAt (text : Chars) : Option (Bool × Chars × Chars) :=
  if text.take 4 = uriMark then
    match quotedAt (text.drop 4) with
    | some (value, after) => some (true, value, after)
    | none => (bareAt tables (text.drop 4)).map fun found => (false, found)
  else none

/-- A text, taken apart by the matches of `_HLS_URI`. -/
inductive Part where
  | char (c : Char)
  | uri (quoted : Bool) (value : Chars)
  deriving DecidableEq

def partsFrom : Nat → Chars → List Part
  | fuel + 1, c :: rest =>
    match uriAt tables (c :: rest) with
    | some (quoted, value, after) => .uri quoted value :: partsFrom fuel after
    | none => .char c :: partsFrom fuel rest
  | _, _ => []

def parts (line : Chars) : List Part := partsFrom tables line.length line

def Part.value? : Part → Option Chars
  | .char _ => none
  | .uri _ value => some value

def quote (quoted : Bool) (value : Chars) : Chars := if quoted then '"' :: value ++ ['"'] else value

def Part.text : Part → Chars
  | .char c => [c]
  | .uri quoted value => uriMark ++ quote quoted value

def render (parts : List Part) : Chars := parts.flatMap Part.text

end Addresses

section Lines
variable (tables : CharTables)

/-- `line.strip().startswith("#")`. -/
def isTag (line : Chars) : Bool := (stripChars tables line).head? = some '#'

def tagName (line : Chars) : Chars := (stripChars tables line).takeWhile (· ≠ ':')

def startsWith (text start : Chars) : Bool := start.isPrefixOf text

/-- The addresses of a line: of a tag its `URI=` values, of any other line that is not blank the line itself. -/
def urisOf (line : Chars) : List Chars :=
  if isTag tables line then (parts tables line).filterMap Part.value?
  else if stripChars tables line = [] then []
  else [stripChars tables line]

def attributeNameChar (c : Char) : Bool := ('A' ≤ c && c ≤ 'Z') || ('0' ≤ c && c ≤ '9') || c = '-'

/-- The value after `=`, and what follows it. -/
def attributeValue (text : Chars) : Chars × Chars :=
  let bare := (text.takeWhile (· ≠ ','), text.dropWhile (· ≠ ','))
  match text with
  | '"' :: rest =>
    let after := rest.dropWhile (· ≠ '"')
    if after ≠ [] then (rest.takeWhile (· ≠ '"'), after.tail) else bare
  | _ => bare

/-- The matches of `([A-Z0-9-]+)=(?:"([^"]*)"|([^,]*))`. -/
def attributePairs : Nat → Chars → List (Chars × Chars)
  | fuel + 1, c :: rest =>
    let name := (c :: rest).takeWhile attributeNameChar
    let after := (c :: rest).dropWhile attributeNameChar
    if name ≠ [] ∧ after.head? = some '=' then
      let value := attributeValue after.tail
      (name, value.1) :: attributePairs fuel value.2
    else attributePairs fuel rest
  | _, _ => []

def hlsAttributes (line : Chars) : Dict Chars Chars := Table.empty.putAll (attributePairs line.length line)

def upperChars (text : Chars) : Chars := text.flatMap tables.upper

def streamInf : Chars := "#EXT-X-STREAM-INF".toList
def mediaTag : Chars := "#EXT-X-MEDIA".toList
def playlistTags : List Chars := [streamInf, "#EXT-X-I-FRAME-STREAM-INF".toList, mediaTag]

/-- The video variants of a master playlist: a stream tag and the address in the line after it. -/
def variants (lines : List Chars) : List (Nat × Chars) :=
  (lines.zipIdx.map fun entry => (entry.2, entry.1)).filter fun entry =>
    tagName tables entry.2 = streamInf && lines[entry.1 + 1]?.any fun next =>
      stripChars tables next ≠ [] && (lstripChars tables next).head? ≠ some '#'

def audioRenditions (lines : List Chars) : List (Nat × Dict Chars Chars) :=
  (lines.zipIdx.filter fun entry => tagName tables entry.1 = mediaTag &&
    upperChars tables (((hlsAttributes entry.1).lookup "TYPE".toList).getD []) = "AUDIO".toList &&
    ((hlsAttributes entry.1).lookup "URI".toList).isSome).map fun entry => (entry.2, hlsAttributes entry.1)

/-- The line of the default rendition of the group, or of its first one. -/
def selectedAudio (lines : List Chars) (group : Chars) : Option Nat :=
  let candidates := (audioRenditions tables lines).filter fun entry => entry.2.lookup "GROUP-ID".toList = some group
  let default := candidates.find? fun entry =>
    upperChars tables ((entry.2.lookup "DEFAULT".toList).getD []) = "YES".toList
  (default.or candidates.head?).map Prod.fst

/-- The lines that are kept of a master playlist: the first variant and its audio. -/
def selectedMasterLines (lines : List Chars) : Option (List Nat) :=
  (variants tables lines).head?.map fun stream =>
    let group := ((hlsAttributes stream.2).lookup "AUDIO".toList).getD []
    let audio := if group ≠ [] then (selectedAudio tables lines group).toList else []
    stream.1 :: (stream.1 + 1) :: audio

end Lines
section FileNames

/-- The characters of a local name. -/
def fileChar (c : Char) : Bool := ('a' ≤ c && c ≤ 'z') || ('0' ≤ c && c ≤ '9') || c = '.'

structure FileName (name : Chars) : Prop where
  nonempty : name ≠ []
  chars : ∀ c ∈ name, fileChar c = true

variable {tables : PlaylistTables} {c : Char}

theorem fileChar_visible (h : fileChar c = true) : tables.isSpace c = false := by
  have hle : '!' ≤ c ∧ c ≤ '~' := by
    simp only [fileChar, Bool.or_eq_true, Bool.and_eq_true, decide_eq_true_eq] at h
    rcases h with (⟨h, h'⟩ | ⟨h, h'⟩) | rfl
    · exact ⟨Char.le_trans (by decide : '!' ≤ 'a') h, Char.le_trans h' (by decide : 'z' ≤ '~')⟩
    · exact ⟨Char.le_trans (by decide : '!' ≤ '0') h, Char.le_trans h' (by decide : '9' ≤ '~')⟩
    · decide
  exact tables.visible c hle.1 hle.2

theorem fileChar_ne {d : Char} (h : fileChar c = true) (hd : fileChar d = false) : c ≠ d := by
  rintro rfl
  rw [h] at hd
  cases hd

theorem FileName.bare {name : Chars} (h : FileName name) : ∀ c ∈ name, bareChar tables.toCharTables c = true := by
  intro c hc
  rw [bareChar, fileChar_visible (h.chars c hc), decide_eq_true (fileChar_ne (h.chars c hc) (by decide))]
  rfl

theorem FileName.unbroken {name : Chars} (h : FileName name) : Unbroken name := by
  intro c hc
  refine decide_eq_false fun hbreak => ?_
  have hnone : lineBreaks.all (fun d => !fileChar d) = true := by decide
  have hfile : (!fileChar c) = true := List.all_eq_true.mp hnone c hbreak
  rw [h.chars c hc] at hfile
  cases hfile

end FileNames

section Matches
variable {tables : CharTables} {text : Chars}

/-- The text goes on with a character of a bare address. -/
def Bare (tables : CharTables) (text : Chars) : Prop := ∃ c, text.head? = some c ∧ bareChar tables c = true

theorem takeWhile_ne_nil {A : Type} {p : A → Bool} {xs : List A} :
    xs.takeWhile p ≠ [] ↔ ∃ x, xs.head? = some x ∧ p x = true := by
  cases xs with
  | nil => simp
  | cons x xs => cases h : p x <;> simp [h]

theorem takeWhile_append_stop {A : Type} {p : A → Bool} {xs ys : List A} (hxs : ∀ x ∈ xs, p x = true)
    (hys : ys.takeWhile p = []) : (xs ++ ys).takeWhile p = xs ∧ (xs ++ ys).dropWhile p = ys := by
  have hdrop : ys.dropWhile p = ys := by
    have hsplit := List.takeWhile_append_dropWhile (p := p) (l := ys)
    rwa [hys, List.nil_append] at hsplit
  exact ⟨by rw [List.takeWhile_append_of_pos hxs, hys, List.append_nil], by rw [List.dropWhile_append_of_pos hxs, hdrop]⟩

theorem bareAt_eq_none : bareAt tables text = none ↔ ¬ Bare tables text := by
  rw [bareAt, Bare, ← takeWhile_ne_nil]
  split <;> simp_all

variable {quoted : Bool} {value after : Chars}

theorem bareAt_eq_some : bareAt tables text = some (value, after) ↔
    text = value ++ after ∧ value ≠ [] ∧ (∀ c ∈ value, bareChar tables c = true) ∧ ¬ Bare tables after := by
  rw [bareAt]
  constructor
  · intro h
    split at h
    · rename_i hne
      cases h
      refine ⟨List.takeWhile_append_dropWhile.symm, hne, fun c hc => List.mem_takeWhile_imp hc, ?_⟩
      rintro ⟨c, hc, hbare⟩
      have hstop := List.head?_dropWhile_not (bareChar tables) text
      rw [hc] at hstop
      exact Bool.false_ne_true (hstop.symm.trans hbare)
    · cases h
  · rintro ⟨rfl, hne, hvalue, hafter⟩
    have hstop : after.takeWhile (bareChar tables) = [] := not_not.mp (mt takeWhile_ne_nil.mp hafter)
    obtain ⟨htake, hdrop⟩ := takeWhile_append_stop hvalue hstop
    rw [htake, hdrop, if_pos hne]

theorem quotedAt_eq_some : quotedAt text = some (value, after) ↔
    text = '"' :: (value ++ '"' :: after) ∧ value ≠ [] ∧ '"' ∉ value := by
  constructor
  · intro h
    rw [quotedAt] at h
    split at h
    · rename_i hquoted
      obtain ⟨hhead, hvalue, hafter⟩ := hquoted
      cases h
      obtain ⟨c, after, hdrop⟩ := List.exists_cons_of_ne_nil hafter
      have hstop := List.head?_dropWhile_not (· ≠ '"') text.tail
      rw [hdrop] at hstop
      have hc : c = '"' := by simpa using hstop
      refine ⟨?_, hvalue, fun hmem => by simpa using List.mem_takeWhile_imp hmem⟩
      rw [hdrop, List.tail_cons, ← hc]
      have hsplit := List.takeWhile_append_dropWhile (p := (· ≠ '"')) (l := text.tail)
      rw [hdrop] at hsplit
      subst hc
      rw [hsplit]
      exact (List.cons_head?_tail hhead).symm
    · cases h
  · intro h
    obtain ⟨rfl, hne, hvalue⟩ := h
    have hall : ∀ c ∈ value, decide (c ≠ '"') = true := fun c hc => decide_eq_true fun h => hvalue (h ▸ hc)
    have hstop : ('"' :: after).takeWhile (· ≠ '"') = [] := by simp
    obtain ⟨htake, hdrop⟩ := takeWhile_append_stop hall hstop
    rw [quotedAt, List.tail_cons, htake, hdrop, if_pos ⟨rfl, hne, List.cons_ne_nil _ _⟩, List.tail_cons]

/-- A quoted match. -/
theorem uriAt_quoted (hne : value ≠ []) (hvalue : '"' ∉ value) :
    uriAt tables (uriMark ++ quote true value ++ after) = some (true, value, after) := by
  have htext : uriMark ++ quote true value ++ after = uriMark ++ '"' :: (value ++ '"' :: after) := by simp [quote]
  have hdrop : (uriMark ++ '"' :: (value ++ '"' :: after)).drop 4 = '"' :: (value ++ '"' :: after) := rfl
  have hmark : (uriMark ++ '"' :: (value ++ '"' :: after)).take 4 = uriMark := rfl
  rw [htext, uriAt, if_pos hmark, hdrop, quotedAt_eq_some.mpr ⟨rfl, hne, hvalue⟩]

/-- A match without quotation marks. -/
theorem uriAt_bare (hne : value ≠ []) (hhead : value.head? ≠ some '"')
    (hvalue : ∀ c ∈ value, bareChar tables c = true) (hafter : ¬ Bare tables after) :
    uriAt tables (uriMark ++ quote false value ++ after) = some (false, value, after) := by
  have hdrop : (uriMark ++ quote false value ++ after).drop 4 = value ++ after := rfl
  have hquoted : quotedAt (value ++ after) = none := by
    obtain ⟨c, rest, rfl⟩ := List.exists_cons_of_ne_nil hne
    rw [quotedAt, if_neg]
    exact fun h => hhead h.1
  have hmark : (uriMark ++ quote false value ++ after).take 4 = uriMark := rfl
  rw [uriAt, if_pos hmark, hdrop, hquoted, bareAt_eq_some.mpr ⟨rfl, hne, hvalue, hafter⟩]
  rfl

theorem uriAt_eq_some (h : uriAt tables text = some (quoted, value, after)) :
    text = uriMark ++ quote quoted value ++ after ∧ value ≠ [] ∧ (quoted = false → ¬ Bare tables after) := by
  rw [uriAt] at h
  split at h
  · rename_i hmark
    have hsplit : text = uriMark ++ text.drop 4 := by rw [← hmark, List.take_append_drop]
    cases hquoted : quotedAt (text.drop 4) with
    | some found =>
      rw [hquoted] at h
      cases h
      obtain ⟨hdrop, hne, _⟩ := quotedAt_eq_some.mp hquoted
      refine ⟨?_, hne, nofun⟩
      rw [hsplit, hdrop]
      simp [quote]
    | none =>
      rw [hquoted] at h
      obtain ⟨found, hbare, heq⟩ := Option.map_eq_some_iff.mp h
      cases heq
      obtain ⟨hdrop, hne, _, hafter⟩ := bareAt_eq_some.mp hbare
      refine ⟨?_, hne, fun _ => hafter⟩
      rw [hsplit, hdrop]
      rfl
  · cases h

/-- There is a match where the mark is followed by a character of a bare address: a quotation mark is one. -/
theorem uriAt_eq_none {tables : PlaylistTables} : uriAt tables.toCharTables text = none ↔
    ¬ (text.take 4 = uriMark ∧ Bare tables.toCharTables (text.drop 4)) := by
  rw [uriAt]
  split
  · rename_i hmark
    rw [and_iff_right hmark]
    cases hquoted : quotedAt (text.drop 4) with
    | some found =>
      refine iff_of_false nofun fun h => h ⟨'"', ?_, ?_⟩
      · rw [(quotedAt_eq_some.mp hquoted).1]
        rfl
      · rw [bareChar, tables.visible '"' (by decide) (by decide)]
        rfl
    | none => exact Option.map_eq_none_iff.trans bareAt_eq_none
  · rename_i hmark
    exact iff_of_true rfl fun h => hmark h.1

end Matches

section Parsed
variable {tables : CharTables} {text : Chars} {parts : List Part} {quoted : Bool} {value after : Chars}

/-- The parts of a text, by the matches from the left. -/
inductive Parsed (tables : CharTables) : Chars → List Part → Prop
  | nil : Parsed tables [] []
  | char {c : Char} {text : Chars} {parts : List Part} :
      uriAt tables (c :: text) = none → Parsed tables text parts → Parsed tables (c :: text) (.char c :: parts)
  | uri {text : Chars} {quoted : Bool} {value after : Chars} {parts : List Part} :
      uriAt tables text = some (quoted, value, after) → Parsed tables after parts → Parsed tables text (.uri quoted value :: parts)

theorem uriAt_length (h : uriAt tables text = some (quoted, value, after)) : after.length < text.length := by
  rw [(uriAt_eq_some h).1, List.length_append, List.length_append]
  change after.length < 4 + (quote quoted value).length + after.length
  omega

theorem parsed_partsFrom {fuel : Nat} (h : text.length ≤ fuel) : Parsed tables text (partsFrom tables fuel text) := by
  induction fuel generalizing text with
  | zero =>
    rw [List.length_eq_zero_iff.mp (Nat.le_zero.mp h)]
    exact .nil
  | succ fuel ih =>
    cases text with
    | nil => exact .nil
    | cons c rest =>
      rw [partsFrom]
      rw [List.length_cons] at h
      cases hmatch : uriAt tables (c :: rest) with
      | none => exact .char hmatch (ih (by omega))
      | some found =>
        obtain ⟨quoted, value, after⟩ := found
        have hlength := uriAt_length hmatch
        rw [List.length_cons] at hlength
        exact .uri hmatch (ih (by omega))

theorem parsed_parts (tables : CharTables) (line : Chars) : Parsed tables line (Hls.parts tables line) := parsed_partsFrom le_rfl

theorem Parsed.partsFrom_eq {fuel : Nat} (h : Parsed tables text parts) (hfuel : text.length ≤ fuel) :
    partsFrom tables fuel text = parts := by
  induction h generalizing fuel with
  | nil => cases fuel <;> rfl
  | @char c text parts hmatch _ ih =>
    cases fuel with
    | zero => cases hfuel
    | succ fuel =>
      rw [List.length_cons] at hfuel
      rw [partsFrom, hmatch]
      exact congrArg (Part.char c :: ·) (ih (by omega))
  | @uri text quoted value after parts hmatch _ ih =>
    have hlength := uriAt_length hmatch
    cases text with
    | nil => cases hlength
    | cons c rest =>
      cases fuel with
      | zero => cases hfuel
      | succ fuel =>
        rw [List.length_cons] at hfuel hlength
        rw [partsFrom, hmatch]
        exact congrArg (Part.uri quoted value :: ·) (ih (by omega))

theorem Parsed.parts_eq (h : Parsed tables text parts) : Hls.parts tables text = parts := h.partsFrom_eq le_rfl

theorem Parsed.render_eq (h : Parsed tables text parts) : render parts = text := by
  induction h with
  | nil => rfl
  | char _ _ ih => exact congrArg _ ih
  | uri hmatch _ ih =>
    rw [(uriAt_eq_some hmatch).1, ← ih]
    rfl

end Parsed

section Alike
variable {tables : PlaylistTables} {text text' after after' : Chars} {c : Char}

/-- Texts that agree outside of their addresses. -/
inductive Alike (tables : CharTables) : Chars → Chars → Prop
  | nil : Alike tables [] []
  | char {text text' : Chars} (c : Char) : Alike tables text text' → Alike tables (c :: text) (c :: text')
  | uri {text text' : Chars} : Bare tables text → Bare tables text' → Alike tables (uriMark ++ text) (uriMark ++ text')

theorem Alike.symm {tables : CharTables} (h : Alike tables text text') : Alike tables text' text := by
  induction h with
  | nil => exact .nil
  | char c _ ih => exact .char c ih
  | uri h h' => exact .uri h' h

theorem Alike.head {tables : CharTables} (h : Alike tables text text') : text.head? = text'.head? := by
  cases h <;> rfl

theorem Alike.tail {tables : CharTables} (h : Alike tables (c :: text) text') (hc : c ≠ 'U') :
    ∃ rest, text' = c :: rest ∧ Alike tables text rest := by
  generalize hfirst : c :: text = first at h
  cases h with
  | nil => cases hfirst
  | char d hrest =>
    cases hfirst
    exact ⟨_, rfl, hrest⟩
  | uri _ _ =>
    cases hfirst
    exact absurd rfl hc

theorem Bare.congr {tables : CharTables} (h : text.head? = text'.head?) : Bare tables text ↔ Bare tables text' := by
  rw [Bare, Bare, h]

/-- Where a match begins in one text, one begins in the other. -/
theorem Alike.mark (h : Alike tables.toCharTables text text')
    (hmark : text.take 4 = uriMark ∧ Bare tables.toCharTables (text.drop 4)) :
    text'.take 4 = uriMark ∧ Bare tables.toCharTables (text'.drop 4) := by
  cases h with
  | nil => exact hmark
  | uri _ hbare => exact ⟨rfl, hbare⟩
  | @char text text' c hrest =>
    have hsplit : c :: text = uriMark ++ (c :: text).drop 4 := by rw [← hmark.1, List.take_append_drop]
    have htext : c = 'U' ∧ text = 'R' :: 'I' :: '=' :: (c :: text).drop 4 := List.cons.inj hsplit
    obtain ⟨hc, htext⟩ := htext
    rw [htext] at hrest
    obtain ⟨text₁, rfl, hrest₁⟩ := hrest.tail (by decide)
    obtain ⟨text₂, rfl, hrest₂⟩ := hrest₁.tail (by decide)
    obtain ⟨text₃, rfl, hrest₃⟩ := hrest₂.tail (by decide)
    exact ⟨by rw [hc]; rfl, (Bare.congr hrest₃.head).mp hmark.2⟩

theorem Alike.uriAt_eq_none (h : Alike tables.toCharTables text text') (hnone : uriAt tables.toCharTables text = none) :
    uriAt tables.toCharTables text' = none :=
  Hls.uriAt_eq_none.mpr fun hmark => Hls.uriAt_eq_none.mp hnone (h.symm.mark hmark)

end Alike

section Replaced
variable {tables : PlaylistTables} {text : Chars} {parts parts' : List Part}

/-- What a part is replaced by: an address by a local name, in the same quotation. -/
inductive Replaced : Part → Part → Prop
  | char (c : Char) : Replaced (.char c) (.char c)
  | uri (quoted : Bool) (value : Chars) {name : Chars} : FileName name → Replaced (.uri quoted value) (.uri quoted name)

theorem FileName.head {name : Chars} (h : FileName name) : ∃ c, name.head? = some c ∧ fileChar c = true := by
  obtain ⟨c, rest, rfl⟩ := List.exists_cons_of_ne_nil h.nonempty
  exact ⟨c, rfl, h.chars c List.mem_cons_self⟩

theorem FileName.not_mem {name : Chars} (h : FileName name) : '"' ∉ name :=
  fun hmem => fileChar_ne (h.chars _ hmem) (by decide) rfl

theorem bare_quote {quoted : Bool} {name : Chars} (h : FileName name) (after : Chars) :
    Bare tables.toCharTables (quote quoted name ++ after) := by
  cases quoted with
  | true =>
    refine ⟨'"', rfl, ?_⟩
    rw [bareChar, tables.visible '"' (by decide) (by decide)]
    rfl
  | false =>
    obtain ⟨c, hhead, hc⟩ := h.head
    refine ⟨c, ?_, ?_⟩
    · exact (List.head?_append_of_ne_nil name h.nonempty).trans hhead
    · rw [bareChar, fileChar_visible hc, decide_eq_true (fileChar_ne hc (by decide))]
      rfl

/-- The text with names in the place of the addresses is taken apart in the same way. -/
theorem Parsed.replace (h : Parsed tables.toCharTables text parts) (hparts : List.Forall₂ Replaced parts parts') :
    Parsed tables.toCharTables (render parts') parts' ∧ Alike tables.toCharTables text (render parts') := by
  induction h generalizing parts' with
  | nil =>
    cases hparts
    exact ⟨.nil, .nil⟩
  | @char c text parts hmatch _ ih =>
    cases hparts with
    | @cons _ part _ rest hpart hrest =>
      cases hpart
      obtain ⟨hparsed, halike⟩ := ih hrest
      exact ⟨.char ((Alike.char c halike).uriAt_eq_none hmatch) hparsed, .char c halike⟩
  | @uri text quoted value after parts hmatch _ ih =>
    cases hparts with
    | @cons _ part _ rest hpart hrest =>
      cases hpart with
      | @uri _ _ name hname =>
        obtain ⟨hparsed, halike⟩ := ih hrest
        obtain ⟨htext, hne, hafter⟩ := uriAt_eq_some hmatch
        have hrender : render (.uri quoted name :: rest) = uriMark ++ quote quoted name ++ render rest := rfl
        constructor
        · refine .uri ?_ hparsed
          rw [hrender]
          cases quoted with
          | true => exact uriAt_quoted hname.nonempty hname.not_mem
          | false =>
            refine uriAt_bare hname.nonempty ?_ hname.bare ?_
            · obtain ⟨c, hhead, hc⟩ := hname.head
              rw [hhead]
              exact fun h => fileChar_ne hc (by decide) (Option.some.inj h)
            · exact mt (Bare.congr halike.head).mpr (hafter rfl)
        · rw [hrender, htext, List.append_assoc, List.append_assoc]
          refine .uri ?_ (bare_quote hname _)
          have hdrop : text.drop 4 = quote quoted value ++ after := by
            rw [htext, List.append_assoc]
            rfl
          rw [← hdrop]
          by_contra hbare
          have hnone := Hls.uriAt_eq_none.mpr fun h => hbare h.2
          rw [hmatch] at hnone
          cases hnone

theorem Alike.lstrip {text text' : Chars} (h : Alike tables.toCharTables text text') :
    (lstripChars tables.toCharTables text).head? = (lstripChars tables.toCharTables text').head? := by
  induction h with
  | nil => rfl
  | char c _ ih =>
    rw [lstripChars, lstripChars, List.dropWhile_cons, List.dropWhile_cons]
    split
    · exact ih
    · rfl
  | uri _ _ =>
    have hspace : tables.isSpace 'U' = false := tables.visible 'U' (by decide) (by decide)
    change (List.dropWhile tables.isSpace ('U' :: _)).head? = (List.dropWhile tables.isSpace ('U' :: _)).head?
    rw [List.dropWhile_cons, List.dropWhile_cons, hspace]
    rfl

/-- Blanks at the end of a text do not matter for its first character that is none. -/
theorem strip_head (tables : CharTables) (text : Chars) :
    (stripChars tables text).head? = (lstripChars tables text).head? := by
  rw [stripChars]
  cases hleft : lstripChars tables text with
  | nil => rfl
  | cons c rest =>
    have hc := List.head?_dropWhile_not tables.isSpace text
    rw [← lstripChars, hleft] at hc
    have hc : tables.isSpace c = false := hc
    have hstrip : lstripChars tables (c :: rest).reverse = (lstripChars tables rest.reverse) ++ [c] := by
      rw [List.reverse_cons, lstripChars, lstripChars, List.dropWhile_append]
      split
      · rename_i hnil
        rw [List.isEmpty_iff.mp hnil, List.dropWhile_cons, hc]
        rfl
      · rfl
    rw [hstrip, List.reverse_append]
    rfl

theorem isTag_eq (tables : CharTables) (line : Chars) :
    isTag tables line = decide ((lstripChars tables line).head? = some '#') := by
  rw [isTag, strip_head]

/-- A tag stays a tag, and its addresses are the names that were put in. -/
theorem urisOf_replaced {line : Chars} (htag : isTag tables.toCharTables line = true)
    (hparts : List.Forall₂ Replaced (Hls.parts tables.toCharTables line) parts') :
    urisOf tables.toCharTables (render parts') = parts'.filterMap Part.value? := by
  obtain ⟨hparsed, halike⟩ := (parsed_parts tables.toCharTables line).replace hparts
  have htag' : isTag tables.toCharTables (render parts') = true := by
    rw [isTag_eq, ← halike.lstrip, ← isTag_eq]
    exact htag
  rw [urisOf, if_pos htag', hparsed.parts_eq]

/-- A local name on a line of its own is its address. -/
theorem urisOf_name {name : Chars} (h : FileName name) : urisOf tables.toCharTables name = [name] := by
  have hspace : ∀ c ∈ name, tables.isSpace c = false := fun c hc => fileChar_visible (h.chars c hc)
  have hleft {text : Chars} (htext : ∀ c ∈ text, tables.isSpace c = false) :
      lstripChars tables.toCharTables text = text := by
    cases text with
    | nil => rfl
    | cons c rest => rw [lstripChars, List.dropWhile_cons, htext c List.mem_cons_self, if_neg Bool.false_ne_true]
  have hstrip : stripChars tables.toCharTables name = name := by
    rw [stripChars, hleft hspace, hleft fun c hc => hspace c (List.mem_reverse.mp hc), List.reverse_reverse]
  have htag : isTag tables.toCharTables name = false := by
    obtain ⟨c, hhead, hc⟩ := h.head
    rw [isTag, hstrip, hhead]
    exact decide_eq_false fun heq => fileChar_ne hc (by decide) (Option.some.inj heq)
  rw [urisOf, htag, hstrip, if_neg Bool.false_ne_true, if_neg h.nonempty]

/-- A tag without the mark has no address. -/
theorem urisOf_unmarked {line : Chars} (htag : isTag tables.toCharTables line = true) (hmark : ¬ uriMark <:+: line) :
    urisOf tables.toCharTables line = [] := by
  rw [urisOf, if_pos htag]
  generalize hparts : Hls.parts tables.toCharTables line = parts
  have hparsed := parsed_parts tables.toCharTables line
  rw [hparts] at hparsed
  clear hparts htag
  induction hparsed with
  | nil => rfl
  | char _ _ ih => exact ih fun h => hmark (h.trans (List.suffix_cons _ _).isInfix)
  | uri hmatch _ _ =>
    refine absurd ?_ hmark
    rw [(uriAt_eq_some hmatch).1, List.append_assoc]
    exact (List.prefix_append _ _).isInfix

/-- The characters of what is put in are no line breaks. -/
theorem render_unbroken {line : Chars} (hline : Unbroken line)
    (hparts : List.Forall₂ Replaced (Hls.parts tables.toCharTables line) parts') : Unbroken (render parts') := by
  have hrender := (parsed_parts tables.toCharTables line).render_eq
  rw [← hrender] at hline
  generalize Hls.parts tables.toCharTables line = parts at hparts hline
  induction hparts with
  | nil => exact hline
  | @cons part part' rest rest' hpart _ ih =>
    have hfirst : Unbroken part.text := fun c hc => hline c (List.mem_append_left _ hc)
    have hrest : Unbroken (render rest) := fun c hc => hline c (List.mem_append_right _ hc)
    change Unbroken (part'.text ++ render rest')
    refine Unbroken.append ?_ (ih hrest)
    cases hpart with
    | char c => exact hfirst
    | uri quoted value hname =>
      refine Unbroken.append (fun c hc => hfirst c (List.mem_append_left _ hc)) ?_
      cases quoted with
      | true =>
        refine List.forall_mem_cons.mpr ⟨rfl, hname.unbroken.append fun c hc => ?_⟩
        rw [List.mem_singleton.mp hc]
        rfl
      | false => exact hname.unbroken

end Replaced
end StockContent.Hls
