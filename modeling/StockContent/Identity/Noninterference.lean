import StockContent.Identity.SecretTexts
import StockContent.Text.Strip

/-! What a redacted value says of the one it was made from. Two values that differ in what is taken away are redacted alike;
the user info of an address is not taken away, and a key that hides its value is found by the detector itself. -/
namespace StockContent.Identity
open Storage Text

section Values
variable (tables : LocatorTables)

mutual
/-- `contains_sensitive_value`. -/
def containsSensitive : Value → Except RedactionError Bool
  | .str s => detectsText tables s
  | .arr items => containsItems items
  | .obj fields => containsFields fields
  | .projected shown content => if tables.isSet shown then containsSensitive content else .ok false
  | _ => .ok false
def containsItems : List Value → Except RedactionError Bool
  | [] => .ok false
  | v :: items => do
    let found ← containsSensitive v
    if found then return true else containsItems items
def containsFields : List (String × Value) → Except RedactionError Bool
  | [] => .ok false
  | (key, v) :: fields =>
    if isSensitive tables.toRedaction key then .ok true
    else do
      let found ← containsSensitive v
      if found then return true else containsFields fields
end

mutual
/-- Every text that is looked at is an address or has no host that would be refused. -/
def Splittable : Value → Prop
  | .str s => ∃ parts, splitLocator tables s = .ok parts
  | .arr items => SplittableItems items
  | .obj fields => SplittableFields fields
  | .projected _ content => Splittable content
  | _ => True
def SplittableItems : List Value → Prop
  | [] => True
  | v :: items => Splittable v ∧ SplittableItems items
def SplittableFields : List (String × Value) → Prop
  | [] => True
  | (key, v) :: fields => (isSensitive tables.toRedaction key = true ∨ Splittable v) ∧ SplittableFields fields
end

mutual
/-- No key that hides its value, and no text with anything to find. -/
def Quiet : Value → Prop
  | .str s => QuietText tables s
  | .arr items => QuietItems items
  | .obj fields => QuietFields fields
  | .projected _ content => Quiet content
  | _ => True
def QuietItems : List Value → Prop
  | [] => True
  | v :: items => Quiet v ∧ QuietItems items
def QuietFields : List (String × Value) → Prop
  | [] => True
  | (key, v) :: fields => (isSensitive tables.toRedaction key = false ∧ Quiet v) ∧ QuietFields fields
end

/-- Texts that are equal, or addresses that differ in query, fragment and as far as `agree` allows in their host. -/
inductive SameText (agree : List Char → List Char → Prop) : String → String → Prop
  | same (s : String) : SameText agree s s
  | locator {s t : String} {parts other : SplitResult} (hs : splitLocator tables s = .ok parts)
      (ht : splitLocator tables t = .ok other) (hparts : isLocator parts = true) (hother : isLocator other = true)
      (hscheme : other.scheme = parts.scheme) (hpath : other.path = parts.path) (hagree : agree parts.netloc other.netloc) :
      SameText agree s t

mutual
/-- Values that differ under keys that hide their values, and in such texts. -/
inductive Alike (agree : List Char → List Char → Prop) : Value → Value → Prop
  | same (v : Value) : Alike agree v v
  | str {s t : String} (h : SameText tables agree s t) : Alike agree (.str s) (.str t)
  | arr {xs ys : List Value} (h : AlikeItems agree xs ys) : Alike agree (.arr xs) (.arr ys)
  | obj {fs gs : List (String × Value)} (h : AlikeFields agree fs gs) : Alike agree (.obj fs) (.obj gs)
  | projected {shown shown' : Json} {v w : Value} (h : Alike agree v w) :
      Alike agree (.projected shown v) (.projected shown' w)
inductive AlikeItems (agree : List Char → List Char → Prop) : List Value → List Value → Prop
  | nil : AlikeItems agree [] []
  | cons {v w : Value} {xs ys : List Value} (h : Alike agree v w) (hs : AlikeItems agree xs ys) :
      AlikeItems agree (v :: xs) (w :: ys)
inductive AlikeFields (agree : List Char → List Char → Prop) : List (String × Value) → List (String × Value) → Prop
  | nil : AlikeFields agree [] []
  | hidden {key : String} {v w : Value} {fs gs : List (String × Value)} (h : isSensitive tables.toRedaction key = true)
      (hs : AlikeFields agree fs gs) : AlikeFields agree ((key, v) :: fs) ((key, w) :: gs)
  | shown {key : String} {v w : Value} {fs gs : List (String × Value)} (h : Alike agree v w)
      (hs : AlikeFields agree fs gs) : AlikeFields agree ((key, v) :: fs) ((key, w) :: gs)
end

/-- They differ under sensitive keys, in queries, in fragments or in the user info of addresses. -/
def DifferInSecrets : Value → Value → Prop := Alike tables fun a b => hostinfo a = hostinfo b

/-- The same, but for the user info. -/
def SameUserinfo : Value → Value → Prop := Alike tables Eq

end Values

section Alike
variable {tables : LocatorTables}

theorem redactText_same {s t : String} (h : SameText tables Eq s t) :
    redactText tables.toRedaction t = redactText tables.toRedaction s := by
  cases h with
  | same => rfl
  | locator hs ht hparts hother hscheme hpath hagree =>
    rw [redactText_of_split hs, redactText_of_split ht, hparts, hother, publicPart, publicPart, hscheme, hpath, hagree]
    rfl

mutual
theorem redact_alike {v w : Value} (h : Alike tables Eq v w) : redact tables.toRedaction w = redact tables.toRedaction v := by
  cases h with
  | same => rfl
  | str h => rw [redact, redact, redactText_same h]
  | arr h => rw [redact, redact, redactItems_alike h]
  | obj h => rw [redact, redact, redactFields_alike h]
  | projected h => rw [redact, redact, redact_alike h]
theorem redactItems_alike {xs ys : List Value} (h : AlikeItems tables Eq xs ys) :
    redactItems tables.toRedaction ys = redactItems tables.toRedaction xs := by
  cases h with
  | nil => rfl
  | cons h hs => rw [redactItems, redactItems, redact_alike h, redactItems_alike hs]
theorem redactFields_alike {fs gs : List (String × Value)} (h : AlikeFields tables Eq fs gs) :
    redactFields tables.toRedaction gs = redactFields tables.toRedaction fs := by
  cases h with
  | nil => rfl
  | hidden h hs => rw [redactFields, redactFields, if_pos h, if_pos h, redactFields_alike hs]
  | shown h hs => rw [redactFields, redactFields, redact_alike h, redactFields_alike hs]
end

theorem netloc_inj {scheme path a b : List Char} (h : Text.urlunsplit scheme a path [] = Text.urlunsplit scheme b path []) :
    a = b := by
  rw [Text.urlunsplit, Text.urlunsplit] at h
  have hafter := List.append_cancel_left h
  simp only [List.cons.injEq, true_and] at hafter
  exact List.append_cancel_right hafter

/-- Texts that are redacted alike differ in nothing that is kept. -/
theorem sameText_of_redact {agree : List Char → List Char → Prop} {s t kept : String} (h : SameText tables agree s t)
    (hs : redactText tables.toRedaction s = .ok kept) (ht : redactText tables.toRedaction t = .ok kept) :
    SameText tables Eq s t := by
  cases h with
  | same => exact .same s
  | locator hsplit hsplit' hparts hother hscheme hpath _ =>
    rw [redactText_of_split hsplit, hparts] at hs
    rw [redactText_of_split hsplit', hother, ← Except.ok.inj hs] at ht
    have hchars := congrArg String.toList (Except.ok.inj ht)
    simp only [String.toList_ofList, if_true, publicPart, hscheme, hpath] at hchars
    exact .locator hsplit hsplit' hparts hother hscheme hpath (netloc_inj hchars).symm

mutual
theorem alike_of_redact {agree : List Char → List Char → Prop} {v w kept : Value} (h : Alike tables agree v w)
    (hv : redact tables.toRedaction v = .ok kept) (hw : redact tables.toRedaction w = .ok kept) : Alike tables Eq v w := by
  cases h with
  | same => exact .same v
  | str h =>
    rw [redact] at hv hw
    obtain ⟨s, hs, rfl⟩ := map_eq_ok.mp hv
    obtain ⟨t, ht, hsame⟩ := map_eq_ok.mp hw
    cases hsame
    exact .str (sameText_of_redact h hs ht)
  | arr h =>
    rw [redact] at hv hw
    obtain ⟨xs, hxs, rfl⟩ := map_eq_ok.mp hv
    obtain ⟨ys, hys, hsame⟩ := map_eq_ok.mp hw
    cases hsame
    exact .arr (alikeItems_of_redact h hxs hys)
  | obj h =>
    rw [redact] at hv hw
    obtain ⟨fs, hfs, rfl⟩ := map_eq_ok.mp hv
    obtain ⟨gs, hgs, hsame⟩ := map_eq_ok.mp hw
    cases hsame
    exact .obj (alikeFields_of_redact h hfs hgs)
  | projected h =>
    rw [redact] at hv hw
    exact .projected (alike_of_redact h hv hw)
theorem alikeItems_of_redact {agree : List Char → List Char → Prop} {xs ys kept : List Value} (h : AlikeItems tables agree xs ys)
    (hxs : redactItems tables.toRedaction xs = .ok kept) (hys : redactItems tables.toRedaction ys = .ok kept) :
    AlikeItems tables Eq xs ys := by
  cases h with
  | nil => exact .nil
  | cons h hs =>
    obtain ⟨v, hv, hxs⟩ := bind_eq_ok.mp hxs
    obtain ⟨rest, hrest, hxs⟩ := bind_eq_ok.mp hxs
    cases hxs
    obtain ⟨w, hw, hys⟩ := bind_eq_ok.mp hys
    obtain ⟨rest', hrest', hys⟩ := bind_eq_ok.mp hys
    cases hys
    exact .cons (alike_of_redact h hv hw) (alikeItems_of_redact hs hrest hrest')
theorem alikeFields_of_redact {agree : List Char → List Char → Prop} {fs gs kept : List (String × Value)}
    (h : AlikeFields tables agree fs gs) (hfs : redactFields tables.toRedaction fs = .ok kept)
    (hgs : redactFields tables.toRedaction gs = .ok kept) : AlikeFields tables Eq fs gs := by
  cases h with
  | nil => exact .nil
  | hidden h hs =>
    rw [redactFields, if_pos h] at hfs hgs
    obtain ⟨rest, hrest, rfl⟩ := map_eq_ok.mp hfs
    obtain ⟨rest', hrest', hsame⟩ := map_eq_ok.mp hgs
    cases hsame
    exact .hidden h (alikeFields_of_redact hs hrest hrest')
  | shown h hs =>
    rw [redactFields] at hfs hgs
    split at hfs
    · rename_i hkey
      rw [if_pos hkey] at hgs
      obtain ⟨rest, hrest, rfl⟩ := map_eq_ok.mp hfs
      obtain ⟨rest', hrest', hsame⟩ := map_eq_ok.mp hgs
      cases hsame
      exact .hidden hkey (alikeFields_of_redact hs hrest hrest')
    · rename_i hkey
      rw [if_neg hkey] at hgs
      obtain ⟨v, hv, hfs⟩ := bind_eq_ok.mp hfs
      obtain ⟨rest, hrest, hfs⟩ := bind_eq_ok.mp hfs
      cases hfs
      obtain ⟨w, hw, hgs⟩ := bind_eq_ok.mp hgs
      obtain ⟨rest', hrest', hgs⟩ := bind_eq_ok.mp hgs
      cases hgs
      exact .shown (alike_of_redact h hv hw) (alikeFields_of_redact hs hrest hrest')
end

end Alike

section Quiet
variable {tables : LocatorTables}

mutual
theorem redact_ok_iff {v : Value} : (∃ kept, redact tables.toRedaction v = .ok kept) ↔ Splittable tables v := by
  cases v with
  | str s =>
    rw [redact, Splittable]
    constructor
    · rintro ⟨kept, h⟩
      obtain ⟨text, htext, -⟩ := map_eq_ok.mp h
      obtain ⟨parts, hparts, -⟩ := redactText_eq_ok.mp htext
      exact ⟨parts, hparts⟩
    · rintro ⟨parts, hparts⟩
      exact ⟨_, map_eq_ok.mpr ⟨_, redactText_of_split hparts, rfl⟩⟩
  | arr items =>
    rw [redact, Splittable, ← redactItems_ok_iff]
    constructor
    · rintro ⟨kept, h⟩
      obtain ⟨rest, hrest, -⟩ := map_eq_ok.mp h
      exact ⟨rest, hrest⟩
    · rintro ⟨rest, hrest⟩
      exact ⟨_, map_eq_ok.mpr ⟨rest, hrest, rfl⟩⟩
  | obj fields =>
    rw [redact, Splittable, ← redactFields_ok_iff]
    constructor
    · rintro ⟨kept, h⟩
      obtain ⟨rest, hrest, -⟩ := map_eq_ok.mp h
      exact ⟨rest, hrest⟩
    · rintro ⟨rest, hrest⟩
      exact ⟨_, map_eq_ok.mpr ⟨rest, hrest, rfl⟩⟩
  | projected shown content =>
    rw [redact, Splittable, redact_ok_iff]
  | _ => exact iff_of_true ⟨_, rfl⟩ trivial
theorem redactItems_ok_iff {items : List Value} :
    (∃ kept, redactItems tables.toRedaction items = .ok kept) ↔ SplittableItems tables items := by
  cases items with
  | nil => exact iff_of_true ⟨_, rfl⟩ trivial
  | cons v items =>
    rw [redactItems, SplittableItems, ← redact_ok_iff, ← redactItems_ok_iff]
    constructor
    · rintro ⟨kept, h⟩
      obtain ⟨first, hfirst, h⟩ := bind_eq_ok.mp h
      obtain ⟨rest, hrest, -⟩ := bind_eq_ok.mp h
      exact ⟨⟨first, hfirst⟩, rest, hrest⟩
    · rintro ⟨⟨first, hfirst⟩, rest, hrest⟩
      exact ⟨_, bind_eq_ok.mpr ⟨first, hfirst, bind_eq_ok.mpr ⟨rest, hrest, rfl⟩⟩⟩
theorem redactFields_ok_iff {fields : List (String × Value)} :
    (∃ kept, redactFields tables.toRedaction fields = .ok kept) ↔ SplittableFields tables fields := by
  cases fields with
  | nil => exact iff_of_true ⟨_, rfl⟩ trivial
  | cons f fields =>
    obtain ⟨key, v⟩ := f
    rw [redactFields, SplittableFields, ← redact_ok_iff, ← redactFields_ok_iff]
    cases isSensitive tables.toRedaction key with
    | true =>
      rw [if_pos rfl]
      constructor
      · rintro ⟨kept, h⟩
        obtain ⟨rest, hrest, -⟩ := map_eq_ok.mp h
        exact ⟨.inl rfl, rest, hrest⟩
      · rintro ⟨-, rest, hrest⟩
        exact ⟨_, map_eq_ok.mpr ⟨rest, hrest, rfl⟩⟩
    | false =>
      rw [if_neg Bool.false_ne_true]
      constructor
      · rintro ⟨kept, h⟩
        obtain ⟨first, hfirst, h⟩ := bind_eq_ok.mp h
        obtain ⟨rest, hrest, -⟩ := bind_eq_ok.mp h
        exact ⟨.inr ⟨first, hfirst⟩, rest, hrest⟩
      · rintro ⟨hfirst, rest, hrest⟩
        obtain ⟨first, hfirst⟩ := hfirst.resolve_left Bool.false_ne_true
        exact ⟨_, bind_eq_ok.mpr ⟨first, hfirst, bind_eq_ok.mpr ⟨rest, hrest, rfl⟩⟩⟩
end

theorem found_or_eq_false {found rest : Except RedactionError Bool} :
    (found >>= fun found => if found = true then pure true else rest) = .ok false ↔ found = .ok false ∧ rest = .ok false := by
  rw [bind_eq_ok]
  constructor
  · rintro ⟨b, hb, h⟩
    cases b with
    | true => cases h
    | false => exact ⟨hb, h⟩
  · rintro ⟨hfound, hrest⟩
    exact ⟨false, hfound, hrest⟩

mutual
/-- The detector finds nothing in a redacted value exactly where there was nothing to find. -/
theorem containsSensitive_redact {v kept : Value} (h : redact tables.toRedaction v = .ok kept) :
    containsSensitive tables kept = .ok false ↔ Quiet tables v := by
  cases v with
  | str s =>
    rw [redact] at h
    obtain ⟨text, htext, rfl⟩ := map_eq_ok.mp h
    rw [containsSensitive, Quiet]
    exact detectsText_redactText htext
  | arr items =>
    rw [redact] at h
    obtain ⟨rest, hrest, rfl⟩ := map_eq_ok.mp h
    rw [containsSensitive, Quiet]
    exact containsItems_redact hrest
  | obj fields =>
    rw [redact] at h
    obtain ⟨rest, hrest, rfl⟩ := map_eq_ok.mp h
    rw [containsSensitive, Quiet]
    exact containsFields_redact hrest
  | projected shown content =>
    rw [redact] at h
    rw [Quiet]
    exact containsSensitive_redact h
  | _ =>
    cases h
    exact iff_of_true rfl trivial
theorem containsItems_redact {items kept : List Value} (h : redactItems tables.toRedaction items = .ok kept) :
    containsItems tables kept = .ok false ↔ QuietItems tables items := by
  cases items with
  | nil =>
    cases h
    exact iff_of_true rfl trivial
  | cons v items =>
    obtain ⟨first, hfirst, h⟩ := bind_eq_ok.mp h
    obtain ⟨rest, hrest, h⟩ := bind_eq_ok.mp h
    cases h
    rw [containsItems, QuietItems, found_or_eq_false, containsSensitive_redact hfirst, containsItems_redact hrest]
theorem containsFields_redact {fields kept : List (String × Value)} (h : redactFields tables.toRedaction fields = .ok kept) :
    containsFields tables kept = .ok false ↔ QuietFields tables fields := by
  cases fields with
  | nil =>
    cases h
    exact iff_of_true rfl trivial
  | cons f fields =>
    obtain ⟨key, v⟩ := f
    rw [redactFields] at h
    rw [QuietFields]
    cases hkey : isSensitive tables.toRedaction key with
    | true =>
      rw [if_pos hkey] at h
      obtain ⟨rest, hrest, rfl⟩ := map_eq_ok.mp h
      rw [containsFields, if_pos hkey]
      refine iff_of_false (fun hfound => ?_) fun hquiet => Bool.noConfusion hquiet.1.1
      cases hfound
    | false =>
      rw [if_neg (Bool.not_eq_true _ ▸ hkey)] at h
      obtain ⟨first, hfirst, h⟩ := bind_eq_ok.mp h
      obtain ⟨rest, hrest, h⟩ := bind_eq_ok.mp h
      cases h
      rw [containsFields, if_neg (Bool.not_eq_true _ ▸ hkey), found_or_eq_false, containsSensitive_redact hfirst,
        containsFields_redact hrest]
      exact and_congr_left fun _ => (and_iff_right rfl).symm
end

mutual
/-- Where there was nothing to find, a redacted value stays as it is. -/
theorem redact_redact {v kept : Value} (h : redact tables.toRedaction v = .ok kept) (hquiet : Quiet tables v) :
    redact tables.toRedaction kept = .ok kept := by
  cases v with
  | str s =>
    rw [redact] at h
    obtain ⟨text, htext, rfl⟩ := map_eq_ok.mp h
    rw [redact, redactText_redactText htext hquiet]
    rfl
  | arr items =>
    rw [redact] at h
    obtain ⟨rest, hrest, rfl⟩ := map_eq_ok.mp h
    rw [redact, redactItems_redactItems hrest hquiet]
    rfl
  | obj fields =>
    rw [redact] at h
    obtain ⟨rest, hrest, rfl⟩ := map_eq_ok.mp h
    rw [redact, redactFields_redactFields hrest hquiet]
    rfl
  | projected shown content =>
    rw [redact] at h
    exact redact_redact h hquiet
  | _ =>
    cases h
    rfl
theorem redactItems_redactItems {items kept : List Value} (h : redactItems tables.toRedaction items = .ok kept)
    (hquiet : QuietItems tables items) : redactItems tables.toRedaction kept = .ok kept := by
  cases items with
  | nil =>
    cases h
    rfl
  | cons v items =>
    obtain ⟨first, hfirst, h⟩ := bind_eq_ok.mp h
    obtain ⟨rest, hrest, h⟩ := bind_eq_ok.mp h
    cases h
    obtain ⟨hv, hitems⟩ := hquiet
    rw [redactItems, redact_redact hfirst hv, redactItems_redactItems hrest hitems]
    rfl
theorem redactFields_redactFields {fields kept : List (String × Value)} (h : redactFields tables.toRedaction fields = .ok kept)
    (hquiet : QuietFields tables fields) : redactFields tables.toRedaction kept = .ok kept := by
  cases fields with
  | nil =>
    cases h
    rfl
  | cons f fields =>
    obtain ⟨key, v⟩ := f
    obtain ⟨⟨hkey, hv⟩, hfields⟩ := hquiet
    have hshown : ¬ isSensitive tables.toRedaction key = true := Bool.not_eq_true _ ▸ hkey
    rw [redactFields, if_neg hshown] at h
    obtain ⟨first, hfirst, h⟩ := bind_eq_ok.mp h
    obtain ⟨rest, hrest, h⟩ := bind_eq_ok.mp h
    cases h
    rw [redactFields, if_neg hshown, redact_redact hfirst hv, redactFields_redactFields hrest hfields]
    rfl
end

end Quiet

section Property
variable (tables : LocatorTables) (v w : Value)

/-- What the redaction of a value promises: nothing of its secrets, nothing more to take away, and nothing to find. -/
structure KeepsSecrets : Prop where
  noninterference : ∀ kept, redact tables.toRedaction v = .ok kept → DifferInSecrets tables v w →
    redact tables.toRedaction w = .ok kept
  idempotence : ∀ kept, redact tables.toRedaction v = .ok kept → redact tables.toRedaction kept = .ok kept
  undetected : ∀ kept, redact tables.toRedaction v = .ok kept → containsSensitive tables kept = .ok false

variable {tables v w}

/-- The promises are kept for two values exactly where they differ in no user info, no key hides its value, and there is
nothing to find in the texts. -/
theorem keepsSecrets_iff : KeepsSecrets tables v w ↔
    (Splittable tables v → (DifferInSecrets tables v w → SameUserinfo tables v w) ∧ Quiet tables v) := by
  constructor
  · rintro ⟨hsame, _, hundetected⟩ hsplit
    obtain ⟨kept, hkept⟩ := redact_ok_iff.mpr hsplit
    exact ⟨fun hsecrets => alike_of_redact hsecrets hkept (hsame kept hkept hsecrets),
      (containsSensitive_redact hkept).mp (hundetected kept hkept)⟩
  · intro h
    have hready {kept : Value} (hkept : redact tables.toRedaction v = .ok kept) := h (redact_ok_iff.mp ⟨kept, hkept⟩)
    exact {
      noninterference := fun kept hkept hsecrets => (redact_alike ((hready hkept).1 hsecrets)).trans hkept
      idempotence := fun kept hkept => redact_redact hkept (hready hkept).2
      undetected := fun kept hkept => (containsSensitive_redact hkept).mpr (hready hkept).2 }

end Property

section Userinfo

/-- ASCII digits, the blank alone, and no host that is refused. -/
def plainLocatorTables : LocatorTables where
  chars := ⟨Char.isDigit, (· = ' '), fun c => [c.toUpper], letter_ne_blank⟩
  urls := ⟨fun _ => false, fun _ => false, List.map Char.toLower⟩
  isWord := fun c => c.isAlphanum || c = '_'
  isSet := fun _ => false
  blank := rfl
  angle := rfl

/-- Two addresses that differ in a user name only are told apart. -/
theorem not_keepsSecrets_userinfo : ¬ KeepsSecrets plainLocatorTables (.str "https://alice@h/") (.str "https://bob@h/") := by
  have halice : splitLocator plainLocatorTables "https://alice@h/" =
      .ok ⟨"https".toList, "alice@h".toList, ['/'], [], []⟩ := by decide
  have hbob : splitLocator plainLocatorTables "https://bob@h/" =
      .ok ⟨"https".toList, "bob@h".toList, ['/'], [], []⟩ := by decide
  have hsecrets : DifferInSecrets plainLocatorTables (.str "https://alice@h/") (.str "https://bob@h/") :=
    .str (.locator halice hbob (by decide) (by decide) rfl rfl (by decide))
  have hshown : redactText plainLocatorTables.toRedaction "https://alice@h/" = .ok "https://alice@h/" := by decide
  have hother : redactText plainLocatorTables.toRedaction "https://bob@h/" = .ok "https://bob@h/" := by decide
  have hkept : redact plainLocatorTables.toRedaction (.str "https://alice@h/") = .ok (.str "https://alice@h/") := by
    rw [redact, hshown]
    rfl
  intro hkeeps
  have hsame := hkeeps.noninterference _ hkept hsecrets
  rw [redact, hother] at hsame
  exact absurd (Value.str.inj (Except.ok.inj hsame)) (by decide)

end Userinfo
end StockContent.Identity
