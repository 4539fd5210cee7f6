import Mathlib.Data.List.DropRight
import Mathlib.Data.List.TakeWhile
import StockContent.Storage.Machine

/-! Addresses, cut into their parts and put together again. -/
namespace StockContent.Text
open Storage

/-- What the host of an address depends on besides its letters: whether its compatible form hides a delimiter, which
hosts may stand in brackets, and its small letters. -/
structure UrlTables where
  hidesDelimiter : List Char → Bool
  isBracketedHost : List Char → Bool
  lower : List Char → List Char

structure SplitResult where
  scheme : List Char
  netloc : List Char
  path : List Char
  query : List Char
  fragment : List Char
  deriving DecidableEq

inductive UrlError where
  | invalidIpv6
  | bracketedHost
  | hiddenDelimiter
  deriving DecidableEq

section Parts

/-- `text.partition(c)` without the separator. -/
def partition (c : Char) (text : List Char) : List Char × List Char :=
  (text.takeWhile (· ≠ c), (text.dropWhile (· ≠ c)).drop 1)

def controlOrSpace (c : Char) : Bool := c.val ≤ 0x20

def unsafeUrlBytes : List Char := ['\t', '\r', '\n']

def keptInUrl (c : Char) : Bool := !unsafeUrlBytes.contains c

def cleanedUrl (url : List Char) : List Char := (url.dropWhile controlOrSpace).filter keptInUrl

def schemeChar (c : Char) : Bool := c.isAlphanum || ['+', '-', '.'].contains c

def startsScheme (scheme : List Char) : Bool := scheme.head?.any Char.isAlpha && scheme.all schemeChar

def splitScheme (url : List Char) : List Char × List Char :=
  if url.contains ':' && startsScheme (partition ':' url).1 then
    ((partition ':' url).1.map Char.toLower, (partition ':' url).2)
  else ([], url)

/-- A character that ends the host of an address. -/
def endsNetloc (c : Char) : Bool := ['/', '?', '#'].contains c

def splitNetloc (url : List Char) : List Char × List Char :=
  if url.take 2 = ['/', '/'] then
    ((url.drop 2).takeWhile fun c => !endsNetloc c, (url.drop 2).dropWhile fun c => !endsNetloc c)
  else ([], url)

def checkNetloc (tables : UrlTables) (netloc : List Char) : Except UrlError Unit := do
  require .invalidIpv6 (netloc.contains '[' = netloc.contains ']')
  require .bracketedHost (!netloc.contains '[' || tables.isBracketedHost (partition ']' (partition '[' netloc).2).1)
  require .hiddenDelimiter ((netloc.all fun c => c.val < 128) || !tables.hidesDelimiter netloc)

def urlsplit (tables : UrlTables) (url : List Char) : Except UrlError SplitResult := do
  let schemed := splitScheme (cleanedUrl url)
  let located := splitNetloc schemed.2
  checkNetloc tables located.1
  let unmarked := partition '#' located.2
  let asked := partition '?' unmarked.1
  return ⟨schemed.1, located.1, asked.1, asked.2, unmarked.2⟩

/-- `urlunsplit` of an address with a scheme and a host. -/
def urlunsplit (scheme netloc path query : List Char) : List Char :=
  let rooted := if path ≠ [] && path.head? ≠ some '/' then '/' :: path else path
  scheme ++ ':' :: '/' :: '/' :: (netloc ++ (rooted ++ if query = [] then [] else '?' :: query))

/-- Before the last `@`, where there is one. -/
def userinfo (netloc : List Char) : Option (List Char) :=
  if netloc.contains '@' then some (netloc.rdropWhile (· ≠ '@')).dropLast else none

def hostinfo (netloc : List Char) : List Char := netloc.rtakeWhile (· ≠ '@')

def username (netloc : List Char) : Option (List Char) := (userinfo netloc).map fun info => (partition ':' info).1

def password (netloc : List Char) : Option (List Char) :=
  (userinfo netloc).bind fun info => if info.contains ':' then some (partition ':' info).2 else none

/-- The host, from between the brackets where there are some. -/
def hostPart (netloc : List Char) : List Char :=
  if (hostinfo netloc).contains '[' then (partition ']' (partition '[' (hostinfo netloc)).2).1
  else (partition ':' (hostinfo netloc)).1

/-- The host in small letters but for its zone; empty where there is none. -/
def hostname (tables : UrlTables) (netloc : List Char) : List Char :=
  if hostPart netloc = [] then []
  else tables.lower (partition '%' (hostPart netloc)).1 ++
    if (hostPart netloc).contains '%' then '%' :: (partition '%' (hostPart netloc)).2 else []

end Parts

section Lemmas
variable {tables : UrlTables} {c : Char} {a b url rest scheme netloc path query : List Char} {parts : SplitResult}

theorem partition_append (h : ∀ d ∈ a, d ≠ c) : partition c (a ++ c :: b) = (a, b) := by
  have hrun : ∀ d ∈ a, decide (d ≠ c) = true := fun d hd => decide_eq_true (h d hd)
  rw [partition, List.takeWhile_append_of_pos hrun, List.dropWhile_append_of_pos hrun]
  simp

theorem partition_none (h : ∀ d ∈ a, d ≠ c) : partition c a = (a, []) := by
  have hrun : ∀ d ∈ a, decide (d ≠ c) = true := fun d hd => decide_eq_true (h d hd)
  rw [partition, List.takeWhile_eq_self_iff.mpr hrun, List.dropWhile_eq_nil_iff.mpr hrun, List.drop_nil]

theorem ne_of_mem_partition {d : Char} (h : d ∈ (partition c a).1) : d ≠ c :=
  of_decide_eq_true (List.mem_takeWhile_imp (p := fun d => decide (d ≠ c)) h)

theorem partition_sublist (c : Char) (a : List Char) : (partition c a).1.Sublist a ∧ (partition c a).2.Sublist a :=
  ⟨List.takeWhile_sublist _, (List.drop_sublist _ _).trans (List.dropWhile_sublist _)⟩

theorem cleanedUrl_eq_self (hhead : url.head?.any controlOrSpace = false) (hkept : ∀ d ∈ url, keptInUrl d = true) :
    cleanedUrl url = url := by
  have hdrop : url.dropWhile controlOrSpace = url := by
    cases url with
    | nil => rfl
    | cons d rest => exact List.dropWhile_cons_of_neg (Bool.not_eq_true _ ▸ hhead)
  rw [cleanedUrl, hdrop, List.filter_eq_self.mpr hkept]

/-- The letters, by their numbers. -/
theorem isAlpha_iff (c : Char) : c.isAlpha = true ↔
    (65 ≤ c.val.toNat ∧ c.val.toNat ≤ 90) ∨ (97 ≤ c.val.toNat ∧ c.val.toNat ≤ 122) := by
  change (decide (c.val ≥ 'A'.val ∧ c.val ≤ 'Z'.val) || (decide (c.val ≥ 'a'.val) && decide (c.val ≤ 'z'.val))) = true ↔ _
  simp only [Bool.or_eq_true, Bool.and_eq_true, decide_eq_true_eq, ge_iff_le, UInt32.le_iff_toNat_le]
  exact Iff.rfl

theorem schemeChar_ascii (h : schemeChar c = true) : c.toNat < 128 := by
  simp only [schemeChar, Char.isAlphanum, Char.isDigit, List.contains_eq_mem, List.mem_cons, List.not_mem_nil, or_false,
    Bool.or_eq_true, Bool.and_eq_true, decide_eq_true_eq, ge_iff_le, UInt32.le_iff_toNat_le, isAlpha_iff] at h
  change c.val.toNat < 128
  rcases h with ((h | h) | h) | rfl | rfl | rfl
  · exact lt_of_le_of_lt h.2 (by decide)
  · exact lt_of_le_of_lt h.2 (by decide)
  · exact lt_of_le_of_lt h.2 (by decide)
  · decide
  · decide
  · decide

theorem toLower_schemeChar (h : schemeChar c = true) :
    schemeChar c.toLower = true ∧ c.toLower.toLower = c.toLower ∧ c.toLower.isAlpha = c.isAlpha ∧ c ≠ ':' := by
  have hascii : ∀ n < 128, schemeChar (Char.ofNat n) = true → schemeChar (Char.ofNat n).toLower = true ∧
      (Char.ofNat n).toLower.toLower = (Char.ofNat n).toLower ∧
        (Char.ofNat n).toLower.isAlpha = (Char.ofNat n).isAlpha ∧ Char.ofNat n ≠ ':' := by decide
  exact Char.ofNat_toNat c ▸ hascii c.toNat (schemeChar_ascii h) ((Char.ofNat_toNat c).symm ▸ h)

/-- A scheme as a split leaves it: a letter and what may follow it, all of them small. -/
structure IsScheme (scheme : List Char) : Prop where
  starts : startsScheme scheme = true
  small : scheme.map Char.toLower = scheme

theorem IsScheme.chars (h : IsScheme scheme) : ∀ d ∈ scheme, schemeChar d = true :=
  List.all_eq_true.mp (Bool.and_eq_true_iff.mp h.starts).2

theorem isScheme_lower (h : startsScheme scheme = true) : IsScheme (scheme.map Char.toLower) := by
  obtain ⟨hhead, hall⟩ := Bool.and_eq_true_iff.mp h
  have hchars := List.all_eq_true.mp hall
  refine ⟨Bool.and_eq_true_iff.mpr ⟨?_, List.all_eq_true.mpr fun d hd => ?_⟩, ?_⟩
  · cases scheme with
    | nil => cases hhead
    | cons d rest => exact (toLower_schemeChar (hchars d List.mem_cons_self)).2.2.1.trans hhead
  · obtain ⟨e, he, rfl⟩ := List.mem_map.mp hd
    exact (toLower_schemeChar (hchars e he)).1
  · rw [List.map_map]
    exact List.map_congr_left fun d hd => (toLower_schemeChar (hchars d hd)).2.1

theorem splitScheme_append (h : IsScheme scheme) : splitScheme (scheme ++ ':' :: rest) = (scheme, rest) := by
  have hcut : partition ':' (scheme ++ ':' :: rest) = (scheme, rest) :=
    partition_append fun d hd => (toLower_schemeChar (h.chars d hd)).2.2.2
  have hcolon : (scheme ++ ':' :: rest).contains ':' = true :=
    List.elem_iff.mpr (List.mem_append_right _ List.mem_cons_self)
  rw [splitScheme, hcut, hcolon, h.starts, Bool.and_self, if_pos rfl, h.small]

theorem splitNetloc_append (hnetloc : ∀ d ∈ netloc, endsNetloc d = false) (hrest : rest.head?.all endsNetloc = true) :
    splitNetloc ('/' :: '/' :: (netloc ++ rest)) = (netloc, rest) := by
  have hrun : ∀ d ∈ netloc, (!endsNetloc d) = true := fun d hd => (Bool.not_eq_true' _).mpr (hnetloc d hd)
  have hstop : rest.takeWhile (fun d => !endsNetloc d) = [] ∧ rest.dropWhile (fun d => !endsNetloc d) = rest := by
    cases rest with
    | nil => exact ⟨rfl, rfl⟩
    | cons d rest =>
      have hd : ¬(!endsNetloc d) = true := by simpa using hrest
      exact ⟨List.takeWhile_cons_of_neg hd, List.dropWhile_cons_of_neg hd⟩
  have htake : ('/' :: '/' :: (netloc ++ rest)).take 2 = ['/', '/'] := rfl
  rw [splitNetloc, if_pos htake]
  change (List.takeWhile _ (netloc ++ rest), List.dropWhile _ (netloc ++ rest)) = _
  rw [List.takeWhile_append_of_pos hrun, List.dropWhile_append_of_pos hrun, hstop.1, hstop.2, List.append_nil]

/-- The parts of an address with a scheme and a host, without a fragment. -/
structure Addressed (tables : UrlTables) (scheme netloc path query : List Char) : Prop where
  isScheme : IsScheme scheme
  host : ∀ c ∈ netloc, endsNetloc c = false ∧ keptInUrl c = true
  checked : checkNetloc tables netloc = .ok ()
  walk : ∀ c ∈ path, c ≠ '?' ∧ c ≠ '#' ∧ keptInUrl c = true
  rooted : path.head?.all (· = '/') = true
  question : ∀ c ∈ query, c ≠ '#' ∧ keptInUrl c = true

theorem keptInUrl_of_schemeChar (h : schemeChar c = true) : keptInUrl c = true := by
  rw [keptInUrl, Bool.not_eq_true', Bool.eq_false_iff]
  intro hunsafe
  simp only [unsafeUrlBytes, List.contains_eq_mem, List.mem_cons, List.not_mem_nil, or_false, decide_eq_true_eq] at hunsafe
  rcases hunsafe with rfl | rfl | rfl <;> exact absurd h (by decide)

theorem controlOrSpace_of_isAlpha (h : c.isAlpha = true) : controlOrSpace c = false := by
  rw [isAlpha_iff] at h
  rw [controlOrSpace, decide_eq_false_iff_not, UInt32.le_iff_toNat_le]
  intro hle
  have hspace : c.val.toNat ≤ 32 := hle
  have hletter : 65 ≤ c.val.toNat := h.elim And.left fun hlower => le_trans (by decide) hlower.1
  omega

theorem Addressed.urlunsplit_eq (h : Addressed tables scheme netloc path query) : urlunsplit scheme netloc path query =
    scheme ++ ':' :: '/' :: '/' :: (netloc ++ (path ++ if query = [] then [] else '?' :: query)) := by
  rw [urlunsplit]
  cases path with
  | nil => rfl
  | cons d path =>
    have hd : d = '/' := of_decide_eq_true h.rooted
    rw [hd]
    rfl

theorem Addressed.cleaned (h : Addressed tables scheme netloc path query) :
    cleanedUrl (urlunsplit scheme netloc path query) = urlunsplit scheme netloc path query := by
  rw [h.urlunsplit_eq]
  refine cleanedUrl_eq_self ?_ fun d hd => ?_
  · obtain ⟨hhead, -⟩ := Bool.and_eq_true_iff.mp h.isScheme.starts
    cases scheme with
    | nil => cases hhead
    | cons d scheme => exact controlOrSpace_of_isAlpha hhead
  · simp only [List.mem_append, List.mem_cons] at hd
    rcases hd with hd | rfl | rfl | rfl | hd | hd | hd
    · exact keptInUrl_of_schemeChar (h.isScheme.chars d hd)
    · decide
    · decide
    · decide
    · exact (h.host d hd).2
    · exact (h.walk d hd).2.2
    · split at hd
      · cases hd
      · rcases List.mem_cons.mp hd with rfl | hd
        · decide
        · exact (h.question d hd).2

/-- An address that is put together is cut into the same parts. -/
theorem urlsplit_urlunsplit (h : Addressed tables scheme netloc path query) :
    urlsplit tables (urlunsplit scheme netloc path query) = .ok ⟨scheme, netloc, path, query, []⟩ := by
  have hrest : (path ++ if query = [] then [] else '?' :: query).head?.all endsNetloc = true := by
    cases path with
    | nil =>
      split
      · rfl
      · rfl
    | cons d path =>
      have hd : d = '/' := of_decide_eq_true h.rooted
      rw [hd]
      rfl
  have hmark : ∀ d ∈ path ++ (if query = [] then [] else '?' :: query), d ≠ '#' := by
    intro d hd
    rcases List.mem_append.mp hd with hd | hd
    · exact (h.walk d hd).2.1
    · split at hd
      · cases hd
      · rcases List.mem_cons.mp hd with rfl | hd
        · decide
        · exact (h.question d hd).1
  have hasked : partition '?' (path ++ if query = [] then [] else '?' :: query) = (path, query) := by
    split
    · rename_i hnone
      rw [List.append_nil, hnone, partition_none fun d hd => (h.walk d hd).1]
    · exact partition_append fun d hd => (h.walk d hd).1
  rw [urlsplit, h.cleaned, h.urlunsplit_eq, splitScheme_append h.isScheme]
  dsimp only
  rw [splitNetloc_append (fun d hd => (h.host d hd).1) hrest, h.checked, partition_none hmark, hasked]
  rfl

/-- A split of an address with a scheme and a host leaves parts that can be put together. -/
theorem addressed_of_urlsplit (h : urlsplit tables url = .ok parts) (hscheme : parts.scheme ≠ []) (hnetloc : parts.netloc ≠ []) :
    Addressed tables parts.scheme parts.netloc parts.path parts.query := by
  obtain ⟨_, hchecked, hparts⟩ := bind_eq_ok.mp h
  cases hparts
  dsimp only at hscheme hnetloc ⊢
  have hkept : ∀ d ∈ cleanedUrl url, keptInUrl d = true := fun d hd => (List.mem_filter.mp hd).2
  obtain ⟨hname, hafter⟩ : IsScheme (splitScheme (cleanedUrl url)).1 ∧
      (splitScheme (cleanedUrl url)).2.Sublist (cleanedUrl url) := by
    unfold splitScheme at hscheme ⊢
    split
    · rename_i hstarts
      exact ⟨isScheme_lower (Bool.and_eq_true_iff.mp hstarts).2, (partition_sublist ':' _).2⟩
    · rename_i hstarts
      rw [if_neg hstarts] at hscheme
      exact absurd rfl hscheme
  have hcut {after : List Char} (hsome : (splitNetloc after).1 ≠ []) :
      (∀ d ∈ (splitNetloc after).1, endsNetloc d = false) ∧ (splitNetloc after).1.Sublist after ∧
        (splitNetloc after).2.Sublist after ∧ (splitNetloc after).2.head?.all endsNetloc = true := by
    unfold splitNetloc at hsome ⊢
    split
    · refine ⟨fun d hd => ?_, (List.takeWhile_sublist _).trans (List.drop_sublist _ _),
        (List.dropWhile_sublist _).trans (List.drop_sublist _ _), ?_⟩
      · exact (Bool.not_eq_true' _).mp (List.mem_takeWhile_imp (p := fun c => !endsNetloc c) hd)
      · have hstop := List.head?_dropWhile_not (fun c => !endsNetloc c) (after.drop 2)
        cases hrest : ((after.drop 2).dropWhile fun c => !endsNetloc c).head? with
        | none => rfl
        | some d =>
          rw [hrest] at hstop
          exact (Bool.not_eq_false' _).mp hstop
    · rename_i hnone
      rw [if_neg hnone] at hsome
      exact absurd rfl hsome
  obtain ⟨hends, hhost, hrest, hhead⟩ := hcut hnetloc
  generalize splitNetloc (splitScheme (cleanedUrl url)).2 = located at *
  have hpath : (partition '?' (partition '#' located.2).1).1.Sublist located.2 :=
    (partition_sublist '?' _).1.trans (partition_sublist '#' _).1
  have hquery : (partition '?' (partition '#' located.2).1).2.Sublist (partition '#' located.2).1 := (partition_sublist '?' _).2
  refine ⟨hname, fun d hd => ⟨hends d hd, hkept d (hafter.subset (hhost.subset hd))⟩, hchecked, fun d hd => ?_, ?_,
    fun d hd => ?_⟩
  · exact ⟨ne_of_mem_partition hd, ne_of_mem_partition ((partition_sublist '?' _).1.subset hd),
      hkept d (hafter.subset (hrest.subset (hpath.subset hd)))⟩
  · cases hlocated : located.2 with
    | nil => rfl
    | cons d rest =>
      rw [hlocated] at hhead
      have hd : endsNetloc d = true := hhead
      simp only [endsNetloc, List.contains_eq_mem, List.mem_cons, List.not_mem_nil, or_false, decide_eq_true_eq] at hd
      rcases hd with rfl | rfl | rfl <;> rfl
  · exact ⟨ne_of_mem_partition (hquery.subset hd),
      hkept d (hafter.subset (hrest.subset ((partition_sublist '#' _).1.subset (hquery.subset hd))))⟩

theorem netloc_ne_nil_of_hostname (h : hostname tables netloc ≠ []) : netloc ≠ [] := by
  rintro rfl
  exact h rfl

end Lemmas
end StockContent.Text
