import StockContent.Identity.Redaction
import StockContent.Text.Leading
import StockContent.Text.Surviving
import StockContent.Text.Urls

/-! What the redaction of a text leaves for its detector to find. An address loses its query and its fragment only; in any
other text, what stands in for a secret is found like the secret itself. -/
namespace StockContent.Identity
open Storage Text

/-- A blank is a space and an angle bracket is none. `isSet` tells a set from a record among what is no JSON. -/
structure LocatorTables where
  chars : CharTables
  urls : UrlTables
  isWord : Char → Bool
  isSet : Json → Bool
  blank : chars.isSpace ' ' = true
  angle : chars.isSpace '<' = false

def urlMessage : UrlError → String
  | .invalidIpv6 => "Invalid IPv6 URL"
  | .bracketedHost => "the bracketed host is no IPv6 address"
  | .hiddenDelimiter => "netloc contains invalid characters under NFKC normalization"

section Tables
variable (tables : LocatorTables)

def splitLocator (value : String) : Except RedactionError SplitResult :=
  (urlsplit tables.urls value.toList).mapError fun error => .valueError (urlMessage error)

def LocatorTables.toRedaction : RedactionTables where
  toCharTables := tables.chars
  isWord := tables.isWord
  lower := fun text => String.ofList (tables.urls.lower text.toList)
  urlsplit := fun value => (splitLocator tables value).map fun parts => ⟨parts.scheme, parts.netloc, parts.path⟩

def isLocator (parts : SplitResult) : Bool := parts.scheme ≠ [] && parts.netloc ≠ []

/-- `_BEARER.search(value) or _ASSIGNMENT.search(value)`. -/
def holdsSecret (text : List Char) : Bool :=
  !((bearer tables.toRedaction).findAllFrom none 0 text).isEmpty ||
    !((assignment tables.toRedaction).findAllFrom none 0 text).isEmpty

/-- `contains_sensitive_value` of a text. -/
def detectsText (value : String) : Except RedactionError Bool := do
  let parsed ← splitLocator tables value
  return parsed.query ≠ [] || parsed.fragment ≠ [] || holdsSecret tables value.toList

/-- The address without its query and its fragment. -/
def publicPart (parts : SplitResult) : List Char := Text.urlunsplit parts.scheme parts.netloc parts.path []

/-- Nothing that a detector would find: in an address before its query, in another text anywhere. -/
def QuietText (value : String) : Prop :=
  ∀ parts, splitLocator tables value = .ok parts →
    if isLocator parts then holdsSecret tables (publicPart parts) = false
    else parts.query = [] ∧ parts.fragment = [] ∧ holdsSecret tables value.toList = false

end Tables

section Patterns
variable {tables : LocatorTables} {text : List Char}

theorem reads_sequence {rs : List Regex} {parts : List (List Char)} (h : List.Forall₂ Regex.Reads rs parts) :
    (Regex.sequence rs).Reads parts.flatten := by
  induction h with
  | nil => exact Regex.reads_empty
  | cons hr _ ih => exact hr.seq ih

theorem reads_anyCase {letters : String} {taken : List Char}
    (h : List.Forall₂ (fun r c => Regex.Reads r [c]) (letters.toList.map fun c => if c.isLower then letter c else .char c) taken) :
    (anyCase letters).Reads taken := by
  have hparts : List.Forall₂ Regex.Reads (letters.toList.map fun c => if c.isLower then letter c else .char c) (taken.map fun c => [c]) :=
    List.forall₂_map_right_iff.mpr h
  have hflatten : (taken.map fun c => [c]).flatten = taken := by
    rw [← List.flatMap_def, List.flatMap_singleton']
  exact hflatten ▸ reads_sequence hparts

theorem reads_bearer : (anyCase "bearer").Reads "Bearer".toList := by
  refine reads_anyCase ?_
  exact .cons (Regex.reads_one (by decide)) (.cons (Regex.reads_one (by decide)) (.cons (Regex.reads_one (by decide))
    (.cons (Regex.reads_one (by decide)) (.cons (Regex.reads_one (by decide)) (.cons (Regex.reads_one (by decide)) .nil)))))

/-- A word at the start of a match is not part of a longer one. -/
theorem ends_notAfter {p : Char → Bool} {r : Regex} {here last : Place} :
    last ∈ (Regex.seq (.notAfter p) r).ends here ↔ here.1.any p = false ∧ last ∈ r.ends here := by
  rw [Regex.mem_ends_seq, Regex.ends]
  cases here.1.any p with
  | false => simp
  | true => simp

theorem bearer_survives : (bearer tables.toRedaction).Survives fun _ => "Bearer <redacted>".toList := by
  intro before text next hnext rest
  obtain ⟨hword, _⟩ := ends_notAfter.mp hnext
  have hreads : (Regex.sequence [anyCase "bearer", .some (.one tables.chars.isSpace),
      .some (.one fun c => !tables.chars.isSpace c)]).Reads ["Bearer".toList, [' '], ['<']].flatten := by
    refine reads_sequence (.cons reads_bearer (.cons (Regex.reads_some_one tables.blank)
      (.cons (Regex.reads_some_one ?_) .nil)))
    rw [tables.angle]
    rfl
  obtain ⟨last, hlast⟩ := hreads before ("redacted>".toList ++ rest)
  exact ⟨_, ends_notAfter.mpr ⟨hword, hlast⟩⟩

/-- `token|sig(?:nature)?|x-amz-(?:signature|credential)|authorization|cookie|key`. -/
def assignedName : Regex := .choice
  [anyCase "token", .seq (anyCase "sig") (.option (anyCase "nature")),
    .seq (anyCase "x-amz-") (.choice [anyCase "signature", anyCase "credential"]), anyCase "authorization",
    anyCase "cookie", anyCase "key"]

theorem assignedName_within : assignedName.Within fun c => decide (c ≠ '=') = true := by
  have hword {text : String} (h : (text.toList.all fun c => decide (c ≠ '=') && decide (c.toUpper ≠ '=')) = true) :
      (anyCase text).Within fun c => decide (c ≠ '=') = true := within_anyCase h (by decide)
  exact ⟨hword (by decide), ⟨hword (by decide), hword (by decide)⟩,
    ⟨hword (by decide), hword (by decide), hword (by decide)⟩, hword (by decide), hword (by decide), hword (by decide)⟩

theorem assignedName_standing : assignedName.standing = true := by decide

theorem assignment_survives :
    (assignment tables.toRedaction).Survives fun found => found.takeWhile (· ≠ '=') ++ '=' :: redacted.toList := by
  intro before text next hnext rest
  obtain ⟨hword, hnext⟩ := ends_notAfter.mp hnext
  obtain ⟨middle, hmiddle, hnext⟩ := Regex.mem_ends_seq.mp hnext
  obtain ⟨name, hname, hletters⟩ := Regex.ends_within assignedName_within hmiddle
  obtain ⟨after, hafter, hnext⟩ := Regex.mem_ends_seq.mp hnext
  obtain ⟨sign, hsign, -⟩ := Regex.ends_within (Regex.within_true _) hafter
  obtain ⟨c, rfl, hc⟩ := Regex.readsText_one ⟨_, _, hafter, hsign⟩
  obtain ⟨run, hrun, -⟩ := Regex.ends_within (Regex.within_true _) hnext
  have hc : c = '=' := of_decide_eq_true hc
  have htext : text = (name ++ '=' :: run) ++ next.2 := by
    have htext : text = name ++ middle.2 := hname
    rw [htext, hsign, hrun, hc]
    simp
  have htaken : text.take (text.length - next.2.length) = name ++ '=' :: run := by
    rw [htext, List.length_append, Nat.add_sub_cancel, List.take_left]
  have hkept : (name ++ '=' :: run).takeWhile (· ≠ '=') = name := by
    rw [List.takeWhile_append_of_pos hletters]
    simp
  have hreads : (Regex.sequence [assignedName, .char '=', .some (.one fun c => !tables.chars.isSpace c && c ≠ '&')]).Reads
      [name, ['='], ['<']].flatten := by
    refine reads_sequence (.cons ?_ (.cons (Regex.reads_one (by decide)) (.cons (Regex.reads_some_one ?_) .nil)))
    · exact Regex.ReadsText.reads ⟨_, _, hmiddle, hname⟩ assignedName_standing
    · rw [tables.angle]
      rfl
  obtain ⟨last, hlast⟩ := hreads before ("redacted>".toList ++ rest)
  have hsame : (name ++ '=' :: redacted.toList) ++ rest = [name, ['='], ['<']].flatten ++ ("redacted>".toList ++ rest) := by
    simp [redacted]
  refine ⟨(last, "redacted>".toList ++ rest), ends_notAfter.mpr ⟨hword, ?_⟩⟩
  dsimp only
  rw [htaken, hkept, hsame]
  exact hlast

/-- What is written in place of the secrets of a text that is no address. -/
def scrubbed (tables : LocatorTables) (text : List Char) : List Char :=
  (assignment tables.toRedaction).sub (fun found => found.takeWhile (· ≠ '=') ++ '=' :: redacted.toList)
    ((bearer tables.toRedaction).sub (fun _ => "Bearer <redacted>".toList) text)

theorem scrubbed_of_quiet (h : holdsSecret tables text = false) : scrubbed tables text = text := by
  simp only [holdsSecret, Bool.or_eq_false_iff, Bool.not_eq_false', List.isEmpty_iff] at h
  have hbearer : (bearer tables.toRedaction).sub (fun _ => "Bearer <redacted>".toList) text = text :=
    Regex.subFrom_of_none h.1
  rw [scrubbed, hbearer]
  exact Regex.subFrom_of_none h.2

/-- Secrets are found again in what stands in for them. -/
theorem holdsSecret_scrubbed : holdsSecret tables (scrubbed tables text) = holdsSecret tables text := by
  cases hquiet : holdsSecret tables text with
  | false => rw [scrubbed_of_quiet hquiet, hquiet]
  | true =>
    by_contra hnot
    have hclear := Bool.eq_false_iff.mpr hnot
    simp only [holdsSecret, Bool.or_eq_false_iff, Bool.not_eq_false', List.isEmpty_iff] at hclear
    simp only [holdsSecret, Bool.or_eq_true, Bool.not_eq_true', List.isEmpty_eq_false_iff] at hquiet
    have hassigned : (assignment tables.toRedaction).findAllFrom none 0
        ((bearer tables.toRedaction).sub (fun _ => "Bearer <redacted>".toList) text) = [] := by
      by_contra hfound
      exact Regex.findAllFrom_subFrom_ne_nil assignment_survives (fun _ => by simp) hfound hclear.2
    have hscrubbed : scrubbed tables text = (bearer tables.toRedaction).sub (fun _ => "Bearer <redacted>".toList) text :=
      Regex.subFrom_of_none hassigned
    rw [hscrubbed] at hclear
    rcases hquiet with hbearer | hassignment
    · exact Regex.findAllFrom_subFrom_ne_nil bearer_survives (fun _ => by decide) hbearer hclear.1
    · refine hassignment ?_
      by_cases hbearer : (bearer tables.toRedaction).findAllFrom none 0 text = []
      · have hsame : (bearer tables.toRedaction).sub (fun _ => "Bearer <redacted>".toList) text = text :=
          Regex.subFrom_of_none hbearer
        rw [hsame] at hassigned
        exact hassigned
      · exact absurd hclear.1 (Regex.findAllFrom_subFrom_ne_nil bearer_survives (fun _ => by decide) hbearer)

end Patterns

section Redacted
variable {tables : LocatorTables} {value kept : String} {parts : SplitResult}

theorem splitLocator_eq_ok : splitLocator tables value = .ok parts ↔ urlsplit tables.urls value.toList = .ok parts :=
  mapError_eq_ok

theorem isLocator_iff : isLocator parts = true ↔ parts.scheme ≠ [] ∧ parts.netloc ≠ [] := by
  rw [isLocator, Bool.and_eq_true, decide_eq_true_eq, decide_eq_true_eq]

/-- The address that is left has the parts that were left of it. -/
theorem splitLocator_publicPart (hsplit : splitLocator tables value = .ok parts) (hlocator : isLocator parts = true) :
    splitLocator tables (String.ofList (publicPart parts)) = .ok ⟨parts.scheme, parts.netloc, parts.path, [], []⟩ := by
  obtain ⟨hscheme, hnetloc⟩ := isLocator_iff.mp hlocator
  have hparts := addressed_of_urlsplit (splitLocator_eq_ok.mp hsplit) hscheme hnetloc
  rw [splitLocator_eq_ok, String.toList_ofList]
  exact urlsplit_urlunsplit ⟨hparts.isScheme, hparts.host, hparts.checked, hparts.walk, hparts.rooted, List.forall_mem_nil _⟩

theorem publicPart_eq (parts : SplitResult) :
    publicPart parts = urlunsplit ⟨parts.scheme, parts.netloc, parts.path⟩ := by
  rw [publicPart, Text.urlunsplit, urlunsplit, if_pos rfl, List.append_nil]

theorem redactText_of_split (h : splitLocator tables value = .ok parts) : redactText tables.toRedaction value =
    .ok (String.ofList (if isLocator parts then publicPart parts else scrubbed tables value.toList)) := by
  have hsplit : tables.toRedaction.urlsplit value = .ok ⟨parts.scheme, parts.netloc, parts.path⟩ := by
    change (splitLocator tables value).map _ = _
    rw [h]
    rfl
  rw [redactText, hsplit, publicPart_eq]
  rfl

theorem redactText_eq_ok : redactText tables.toRedaction value = .ok kept ↔ ∃ parts, splitLocator tables value = .ok parts ∧
    kept = String.ofList (if isLocator parts then publicPart parts else scrubbed tables value.toList) := by
  constructor
  · intro h
    obtain ⟨short, hshort, -⟩ := bind_eq_ok.mp h
    change (splitLocator tables value).map _ = _ at hshort
    cases hsplit : splitLocator tables value with
    | error e =>
      rw [hsplit] at hshort
      cases hshort
    | ok parts =>
      rw [redactText_of_split hsplit] at h
      exact ⟨parts, rfl, (Except.ok.inj h).symm⟩
  · rintro ⟨parts, hsplit, rfl⟩
    exact redactText_of_split hsplit

theorem quietText_iff (h : splitLocator tables value = .ok parts) : QuietText tables value ↔
    if isLocator parts then holdsSecret tables (publicPart parts) = false
    else parts.query = [] ∧ parts.fragment = [] ∧ holdsSecret tables value.toList = false := by
  constructor
  · intro hquiet
    exact hquiet parts h
  · intro hquiet other hother
    rw [h] at hother
    cases hother
    exact hquiet

theorem detectsText_eq_false : detectsText tables value = .ok false ↔ ∃ parts, splitLocator tables value = .ok parts ∧
    parts.query = [] ∧ parts.fragment = [] ∧ holdsSecret tables value.toList = false := by
  rw [detectsText, bind_eq_ok]
  refine exists_congr fun parts => and_congr_right fun _ => ?_
  simp [pure, Except.pure, and_assoc]

/-- The detector finds nothing in what is left of a text exactly where there was nothing to find. -/
theorem detectsText_redactText (h : redactText tables.toRedaction value = .ok kept) :
    detectsText tables kept = .ok false ↔ QuietText tables value := by
  obtain ⟨parts, hsplit, rfl⟩ := redactText_eq_ok.mp h
  rw [quietText_iff hsplit, detectsText_eq_false]
  cases hlocator : isLocator parts with
  | true =>
    simp only [if_true, splitLocator_publicPart hsplit hlocator, String.toList_ofList]
    constructor
    · rintro ⟨_, -, -, -, hquiet⟩
      exact hquiet
    · exact fun hquiet => ⟨_, rfl, rfl, rfl, hquiet⟩
  | false =>
    simp only [Bool.false_eq_true, if_false, String.toList_ofList, holdsSecret_scrubbed]
    constructor
    · rintro ⟨other, hother, hquery, hfragment, hquiet⟩
      rw [scrubbed_of_quiet hquiet, String.ofList_toList, hsplit] at hother
      cases hother
      exact ⟨hquery, hfragment, hquiet⟩
    · rintro ⟨hquery, hfragment, hquiet⟩
      rw [scrubbed_of_quiet hquiet, String.ofList_toList]
      exact ⟨parts, hsplit, hquery, hfragment, hquiet⟩

/-- Where there was nothing to find, nothing more is taken away. -/
theorem redactText_redactText (h : redactText tables.toRedaction value = .ok kept) (hquiet : QuietText tables value) :
    redactText tables.toRedaction kept = .ok kept := by
  obtain ⟨parts, hsplit, rfl⟩ := redactText_eq_ok.mp h
  rw [quietText_iff hsplit] at hquiet
  cases hlocator : isLocator parts with
  | true =>
    have hagain : isLocator ⟨parts.scheme, parts.netloc, parts.path, [], []⟩ = true := hlocator
    rw [if_pos rfl, redactText_of_split (splitLocator_publicPart hsplit hlocator), hagain]
    rfl
  | false =>
    rw [hlocator, if_neg Bool.false_ne_true] at hquiet
    rw [if_neg Bool.false_ne_true, scrubbed_of_quiet hquiet.2.2, String.ofList_toList, redactText_of_split hsplit, hlocator,
      if_neg Bool.false_ne_true, scrubbed_of_quiet hquiet.2.2, String.ofList_toList]

end Redacted
end StockContent.Identity
