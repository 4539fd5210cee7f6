import StockContent.Ingestion.SourceResolution

/-! Commands that carry a credential. Two kinds of sources are vetted, and the third one only where it was reached from
the second: a playlist that is named as such keeps its reference and its credential unseen. -/
namespace StockContent.Ingestion
open StockContent.Storage StockContent.Text

section Public
variable (tables : SourceTables)

/-- No user info, no fragment, and no query but the one that selects a page. -/
def isPublicRef (ref : List Char) : Bool :=
  (urlsplit tables.toUrlTables ref).toOption.any fun parts =>
    !hasCredentials parts.netloc && parts.fragment = [] && (parts.query = [] || isPageSelector parts.query)

/-- No character that begins or ends what is kept out of a reference, nor a bracket. -/
def plainChar (c : Char) : Bool := !(['@', '?', '#', '[', ']'].contains c)

variable {tables} {ref path query netloc : List Char} {parts : SplitResult}

theorem isPublicRef_of_split (h : urlsplit tables.toUrlTables ref = .ok parts) (hnetloc : hasCredentials parts.netloc = false)
    (hfragment : parts.fragment = []) (hquery : parts.query = [] ∨ isPageSelector parts.query = true) :
    isPublicRef tables ref = true := by
  have hasked : (decide (parts.query = []) || isPageSelector parts.query) = true :=
    Bool.or_eq_true_iff.mpr (hquery.imp_left decide_eq_true)
  rw [isPublicRef, h, Except.toOption, Option.any_some, hnetloc, hfragment, hasked]
  rfl

theorem hasCredentials_of_plain (h : ∀ c ∈ netloc, plainChar c = true) : hasCredentials netloc = false := by
  have hat : netloc.contains '@' = false := Bool.eq_false_iff.mpr fun hmem =>
    absurd (h '@' (List.elem_iff.mp hmem)) (by decide)
  have hnone : userinfo netloc = none := by rw [userinfo, hat, if_neg Bool.false_ne_true]
  rw [hasCredentials, username, password, hnone]
  rfl

/-- A reference without such characters is public, if its host has no letters that could hide one. -/
theorem isPublicRef_of_plain (h : ∀ c ∈ ref, plainChar c = true) (hhost : (∀ c ∈ ref, c.val < 128) ∨ '/' ∉ ref) :
    isPublicRef tables ref = true := by
  have hclean : (cleanedUrl ref).Sublist ref := List.filter_sublist.trans (List.dropWhile_sublist _)
  have hschemed : (splitScheme (cleanedUrl ref)).2.Sublist ref := by
    rw [splitScheme]
    split
    · exact (partition_sublist ':' _).2.trans hclean
    · exact hclean
  generalize hschemed' : splitScheme (cleanedUrl ref) = schemed at *
  have hlocated : (splitNetloc schemed.2).1.Sublist ref ∧ (splitNetloc schemed.2).2.Sublist ref ∧
      ((splitNetloc schemed.2).1 = [] ∨ '/' ∈ ref) := by
    rw [splitNetloc]
    split
    · rename_i hslashes
      refine ⟨((List.takeWhile_sublist _).trans (List.drop_sublist _ _)).trans hschemed,
        ((List.dropWhile_sublist _).trans (List.drop_sublist _ _)).trans hschemed, .inr (hschemed.subset ?_)⟩
      refine List.mem_of_mem_take (i := 2) ?_
      rw [hslashes]
      exact List.mem_cons_self
    · exact ⟨List.nil_sublist _, hschemed, .inl rfl⟩
  obtain ⟨hnetloc, hrest, hempty⟩ := hlocated
  generalize hlocated' : splitNetloc schemed.2 = located at *
  have hplain : ∀ c ∈ located.1, plainChar c = true := fun c hc => h c (hnetloc.subset hc)
  have hnone (c : Char) (hc : plainChar c = false) : ∀ d ∈ located.2, d ≠ c := by
    rintro d hd rfl
    rw [h d (hrest.subset hd)] at hc
    cases hc
  have hbracket (c : Char) (hc : plainChar c = false) : located.1.contains c = false := by
    refine Bool.eq_false_iff.mpr fun hmem => ?_
    rw [hplain c (List.elem_iff.mp hmem)] at hc
    cases hc
  have hascii : (located.1.all fun c => c.val < 128) = true := by
    rcases hhost with hhost | hslash
    · exact List.all_eq_true.mpr fun c hc => decide_eq_true (hhost c (hnetloc.subset hc))
    · rw [hempty.resolve_right hslash]
      rfl
  have hchecked : checkNetloc tables.toUrlTables located.1 = .ok () := by
    rw [checkNetloc, hbracket '[' (by decide), hbracket ']' (by decide), hascii]
    rfl
  have hsplit : urlsplit tables.toUrlTables ref = .ok ⟨schemed.1, located.1, located.2, [], []⟩ := by
    rw [urlsplit, hschemed']
    dsimp only
    rw [hlocated', hchecked, partition_none (hnone '#' (by decide)), partition_none (hnone '?' (by decide))]
    rfl
  exact isPublicRef_of_split hsplit (hasCredentials_of_plain hplain) rfl (.inl rfl)

/-- An address of a fixed host is public. -/
theorem isPublicRef_urlunsplit {scheme host : List Char} (h : Addressed tables.toUrlTables scheme host path query)
    (hhost : hasCredentials host = false) (hquery : query = [] ∨ isPageSelector query = true) :
    isPublicRef tables (urlunsplit scheme host path query) = true :=
  isPublicRef_of_split (urlsplit_urlunsplit h) hhost rfl hquery

end Public
section Forms
variable {tables : SourceTables} {P : Char → Prop} {text ref : List Char} {c : Char}

/-- Neither plain, nor between the parts of an address. -/
def quietChar (c : Char) : Bool := plainChar c && c ≠ '/'

theorem quietChar_of_ne (h : c ∉ ['@', '?', '#', '[', ']', '/']) : quietChar c = true := by
  simp only [List.mem_cons, List.not_mem_nil, or_false, not_or] at h
  simp [quietChar, plainChar, h]

theorem quietChar_of_schemeChar (h : schemeChar c = true) : quietChar c = true := by
  refine quietChar_of_ne fun hmem => ?_
  simp only [List.mem_cons, List.not_mem_nil, or_false] at hmem
  rcases hmem with rfl | rfl | rfl | rfl | rfl | rfl <;> exact absurd h (by decide)

theorem schemeChar_of_isAlphanum (h : c.isAlphanum = true) : schemeChar c = true := Bool.or_eq_true_iff.mpr (.inl h)

theorem ascii_of_schemeChar (h : schemeChar c = true) : c.val < 128 := UInt32.lt_iff_toNat_lt.mpr (schemeChar_ascii h)

theorem within_digits {first : Char} (hfirst : '0' ≤ first) (h : ∀ d : Char, d.isAlphanum = true → P d) :
    (Regex.range first '9').Within P := by
  intro d hd
  simp only [Bool.and_eq_true, decide_eq_true_eq] at hd
  refine h d (Bool.or_eq_true_iff.mpr (.inr ?_))
  exact Bool.and_eq_true_iff.mpr ⟨decide_eq_true (le_trans hfirst hd.1), decide_eq_true hd.2⟩

theorem bilibiliBv_within : ∀ r ∈ bilibiliBv, r.Within fun c => quietChar c = true := by
  rw [bilibiliBv, List.forall_mem_cons, List.forall_mem_singleton]
  refine ⟨Identity.within_anyCase (by decide) (by decide), fun d hd => ?_⟩
  rcases Bool.or_eq_true_iff.mp hd with halnum | hspecial
  · exact quietChar_of_schemeChar (schemeChar_of_isAlphanum halnum)
  · have hforeign : (['İ', 'ı', 'ſ', '\u212a'].all quietChar) = true := by decide
    exact List.all_eq_true.mp hforeign d (List.elem_iff.mp hspecial)

theorem bilibiliAv_within : ∀ r ∈ bilibiliAv, r.Within fun c => quietChar c.toLower = true := by
  have halnum (d : Char) (hd : d.isAlphanum = true) : quietChar d.toLower = true :=
    quietChar_of_schemeChar (toLower_schemeChar (schemeChar_of_isAlphanum hd)).1
  rw [bilibiliAv, List.forall_mem_cons, List.forall_mem_cons, List.forall_mem_singleton]
  exact ⟨Identity.within_anyCase (by decide) (by decide), within_digits (by decide) halnum, within_digits (by decide) halnum⟩

theorem stableXiaoeRef_within : ∀ r ∈ stableXiaoeRef, r.Within fun c => plainChar c = true ∧ c.val < 128 := by
  have halnum (d : Char) (hd : d.isAlphanum = true) : plainChar d = true ∧ d.val < 128 :=
    ⟨(Bool.and_eq_true_iff.mp (quietChar_of_schemeChar (schemeChar_of_isAlphanum hd))).1,
      ascii_of_schemeChar (schemeChar_of_isAlphanum hd)⟩
  have hstable (d : Char) (hd : stableChar d = true) : plainChar d = true ∧ d.val < 128 := by
    rcases Bool.or_eq_true_iff.mp hd with hd | hd
    · exact halnum d hd
    · have hmem := List.elem_iff.mp hd
      simp only [List.mem_cons, List.not_mem_nil, or_false] at hmem
      rcases hmem with rfl | rfl | rfl | rfl <;> decide
  have hslash (d : Char) (hd : decide (d = '/') = true) : plainChar d = true ∧ d.val < 128 := by
    rw [of_decide_eq_true hd]
    decide
  rw [stableXiaoeRef, List.forall_mem_cons, List.forall_mem_cons, List.forall_mem_singleton]
  exact ⟨halnum, hstable, hslash, halnum, hstable, trivial⟩

theorem isPublicRef_of_quiet (h : ∀ c ∈ ref, quietChar c = true) : isPublicRef tables ref = true := by
  refine isPublicRef_of_plain (fun c hc => (Bool.and_eq_true_iff.mp (h c hc)).1) (.inr fun hslash => ?_)
  exact absurd (h '/' hslash) (by decide)

theorem isPublicRef_bilibiliNumber (h : bilibiliNumber tables text = some ref) : isPublicRef tables ref = true := by
  unfold bilibiliNumber at h
  split at h
  · rename_i parts hparts
    cases h
    have hchars := fullmatch_within hparts bilibiliBv_within
    obtain ⟨hflatten, -⟩ := fullmatch_parts hparts
    refine isPublicRef_of_quiet fun c hc => ?_
    rcases List.mem_cons.mp hc with rfl | hc
    · decide
    · rcases List.mem_cons.mp hc with rfl | hc
      · decide
      · refine hchars c (hflatten ▸ List.mem_flatten.mpr ⟨parts.getD 1 [], ?_, hc⟩)
        rw [List.getD_eq_getElem?_getD] at hc ⊢
        cases hpart : parts[1]? with
        | none =>
          rw [hpart] at hc
          cases hc
        | some part => exact List.mem_of_getElem? hpart
  · split at h
    · rename_i hmatch
      cases h
      obtain ⟨parts, hparts⟩ := Option.isSome_iff_exists.mp hmatch
      have hchars := fullmatch_within hparts bilibiliAv_within
      refine isPublicRef_of_quiet fun c hc => ?_
      obtain ⟨d, hd, rfl⟩ := List.mem_map.mp hc
      exact hchars d hd
    · cases h

theorem isPublicRef_stable (h : (fullmatch stableXiaoeRef ref).isSome = true) : isPublicRef tables ref = true := by
  obtain ⟨parts, hparts⟩ := Option.isSome_iff_exists.mp h
  have hchars := fullmatch_within hparts stableXiaoeRef_within
  exact isPublicRef_of_plain (fun c hc => (hchars c hc).1) (.inl fun c hc => (hchars c hc).2)

theorem split_eq_ok {parts : SplitResult} : split tables text = .ok parts ↔ urlsplit tables.toUrlTables text = .ok parts :=
  mapError_eq_ok

theorem netlocChars (h : (text.all fun c => !endsNetloc c && keptInUrl c) = true) :
    ∀ c ∈ text, endsNetloc c = false ∧ keptInUrl c = true := fun c hc => by
  simpa only [Bool.and_eq_true, Bool.not_eq_true'] using List.all_eq_true.mp h c hc

theorem isPublicRef_bilibiliAddress (h : bilibiliAddress tables text = .ok ref) : isPublicRef tables ref = true := by
  obtain ⟨parsed, hparsed, h⟩ := bind_eq_ok.mp h
  obtain ⟨happroved, h⟩ := then_eq_ok.mp h
  have hpublic := require_eq_ok.mp happroved
  simp only [Bool.and_eq_true, decide_eq_true_eq] at hpublic
  obtain ⟨⟨hscheme, _⟩, hhost⟩ := hpublic
  have hparts := addressed_of_urlsplit (split_eq_ok.mp hparsed) (by rw [hscheme]; decide) (netloc_ne_nil_of_hostname hhost)
  have hhttps : IsScheme "https".toList := ⟨by decide, by decide⟩
  split at h
  · obtain ⟨_, h⟩ := then_eq_ok.mp h
    cases h
    exact isPublicRef_urlunsplit ⟨hhttps, netlocChars (by decide), rfl, hparts.walk, hparts.rooted, List.forall_mem_nil _⟩
      (by decide) (.inl rfl)
  · obtain ⟨_, h⟩ := then_eq_ok.mp h
    obtain ⟨_, h⟩ := then_eq_ok.mp h
    obtain ⟨hquery, h⟩ := then_eq_ok.mp h
    cases h
    refine isPublicRef_urlunsplit ⟨hhttps, netlocChars (by decide), rfl, hparts.walk, hparts.rooted, hparts.question⟩
      (by decide) ?_
    exact (Bool.or_eq_true_iff.mp (require_eq_ok.mp hquery)).imp_left of_decide_eq_true

theorem isPublicRef_bilibili {url bvId : Option (List Char)} (h : canonicalBilibiliRef tables url bvId = .ok ref) :
    isPublicRef tables ref = true := by
  obtain ⟨_, h⟩ := then_eq_ok.mp h
  dsimp only at h
  split at h
  · rename_i hnumber
    cases h
    exact isPublicRef_bilibiliNumber hnumber
  · exact isPublicRef_bilibiliAddress h

theorem isPublicRef_directHls (h : isPublicXiaoeHlsRef tables ref = .ok true) : isPublicRef tables ref = true := by
  obtain ⟨parsed, hparsed, h⟩ := bind_eq_ok.mp h
  have hpublic := Except.ok.inj h
  simp only [Bool.and_eq_true, decide_eq_true_eq, Bool.not_eq_true'] at hpublic
  obtain ⟨⟨⟨⟨_, hcredentials⟩, hquery⟩, hfragment⟩, _⟩ := hpublic
  exact isPublicRef_of_split (split_eq_ok.mp hparsed) hcredentials hfragment (.inl hquery)

end Forms

section Credentials
variable {tables : SourceTables} {request : IngestionRequest} {resolved : ResolvedRef} {credential : CredentialReference}

/-- The reference and the provider are both allowlisted. -/
def Listed (refs : List (List Char)) (providers : List String) (credential : CredentialReference) : Prop :=
  credential.credentialRef ∈ refs ∧ credential.provider ∈ providers

/-- A command with a credential was built from one that is allowlisted, and its reference is public. -/
def CredentialSafe (tables : SourceTables) (request : IngestionRequest) (refs : List (List Char)) (providers : List String) :
    Prop :=
  ∀ command, normalizeCommand tables
      { request with allowedCredentialRefs := some refs, allowedCredentialProviders := some providers } = .ok command →
    ∀ hash, command.credentialRefHash = some hash →
      (∃ credential, request.credentialRef = some credential ∧ hash = tables.hash credential.credentialRef ∧
        Listed refs providers credential) ∧ isPublicRef tables command.canonicalSourceRef = true

theorem listed_of_checked {refs : List (List Char)} {providers : List String}
    (h : checkCredential { request with allowedCredentialRefs := some refs, allowedCredentialProviders := some providers }
      credential = .ok ()) : Listed refs providers credential := by
  obtain ⟨href, hprovider⟩ := then_eq_ok.mp h
  exact ⟨List.elem_iff.mp (require_eq_ok.mp href), List.elem_iff.mp (require_eq_ok.mp hprovider)⟩

/-- What is refused whatever the source does not depend on the allowlists. -/
theorem checkRequest_allowlists (refs : Option (List (List Char))) (providers : Option (List String)) :
    checkRequest tables { request with allowedCredentialRefs := refs, allowedCredentialProviders := providers } =
      checkRequest tables request := rfl

theorem resolveXiaoe_vetted (h : resolveXiaoe tables request = .ok resolved) :
    (∃ credential, request.credentialRef = some credential ∧ checkCredential request credential = .ok ()) ∧
      isPublicRef tables resolved.sourceRef = true := by
  obtain ⟨sourceRef, _, h⟩ := bind_eq_ok.mp h
  obtain ⟨isDirectHls, hdirect, h⟩ := bind_eq_ok.mp h
  obtain ⟨hform, h⟩ := then_eq_ok.mp h
  obtain ⟨credential, hcredential, h⟩ := bind_eq_ok.mp h
  obtain ⟨hchecked, h⟩ := then_eq_ok.mp h
  cases h
  refine ⟨⟨credential, elim_eq_ok.mp hcredential, hchecked⟩, ?_⟩
  rcases Bool.or_eq_true_iff.mp (require_eq_ok.mp hform) with hdirectHls | hstable
  · exact isPublicRef_directHls (hdirectHls ▸ hdirect)
  · exact isPublicRef_stable (Bool.and_eq_true_iff.mp hstable).1

theorem resolveBilibili_vetted (h : resolveBilibili tables request = .ok resolved) (hcredential : request.credentialRef = some credential) :
    checkCredential request credential = .ok () ∧ isPublicRef tables resolved.sourceRef = true := by
  obtain ⟨hchecked, h⟩ := then_eq_ok.mp h
  obtain ⟨sourceRef, href, h⟩ := bind_eq_ok.mp h
  obtain ⟨parsed, _, h⟩ := bind_eq_ok.mp h
  cases h
  rw [hcredential] at hchecked
  exact ⟨hchecked, isPublicRef_bilibili href⟩

/-- Commands with a credential are safe exactly where no playlist is named as such with one, or that one is allowlisted
and the reference public as it is given. -/
theorem credentialSafe_iff (refs : List (List Char)) (providers : List String) :
    CredentialSafe tables request refs providers ↔
      (request.sourceType = "xiaoe_hls" → checkRequest tables request = .ok () →
        ∀ credential, request.credentialRef = some credential →
          Listed refs providers credential ∧ isPublicRef tables request.sourceRef = true) := by
  constructor
  · intro hsafe htype hchecked credential hcredential
    have hresolved : resolveSource tables { request with
        allowedCredentialRefs := some refs, allowedCredentialProviders := some providers } =
          .ok ⟨request.sourceType, request.sourceRef, request.part⟩ := by
      rw [resolveSource, if_neg (by rw [htype]; decide), if_neg (by rw [htype]; decide)]
    have hcommand : ∃ command, normalizeCommand tables { request with
        allowedCredentialRefs := some refs, allowedCredentialProviders := some providers } = .ok command ∧
          command.canonicalSourceRef = request.sourceRef ∧
          command.credentialRefHash = some (tables.hash credential.credentialRef) := by
      rw [normalizeCommand, checkRequest_allowlists, hchecked, hresolved]
      refine ⟨_, rfl, rfl, ?_⟩
      dsimp only
      rw [hcredential]
      rfl
    obtain ⟨command, hnormalized, href, hhash⟩ := hcommand
    obtain ⟨⟨other, hother, _, hlisted⟩, hpublic⟩ := hsafe command hnormalized _ hhash
    rw [hcredential] at hother
    cases hother
    exact ⟨hlisted, href ▸ hpublic⟩
  · intro hdirect command hcommand hash hhash
    obtain ⟨hchecked, hcommand⟩ := then_eq_ok.mp hcommand
    obtain ⟨resolved, hresolved, hcommand⟩ := bind_eq_ok.mp hcommand
    cases hcommand
    obtain ⟨credential, hcredential, rfl⟩ := Option.map_eq_some_iff.mp hhash
    have hvetted : Listed refs providers credential ∧ isPublicRef tables resolved.sourceRef = true := by
      unfold resolveSource at hresolved
      split at hresolved
      · obtain ⟨⟨other, hother, hlisted⟩, hpublic⟩ := resolveXiaoe_vetted hresolved
        rw [hcredential] at hother
        cases hother
        exact ⟨listed_of_checked hlisted, hpublic⟩
      · split at hresolved
        · obtain ⟨hlisted, hpublic⟩ := resolveBilibili_vetted hresolved hcredential
          exact ⟨listed_of_checked hlisted, hpublic⟩
        · rename_i hxiaoe hbilibili
          cases hresolved
          refine hdirect ?_ hchecked credential hcredential
          have htypes := require_eq_ok.mp (then_eq_ok.mp hchecked).1
          have hmem := List.elem_iff.mp htypes
          simp only [List.mem_cons, List.not_mem_nil, or_false] at hmem
          exact (hmem.resolve_left hbilibili).resolve_left hxiaoe
    exact ⟨⟨credential, hcredential, rfl, hvetted.1⟩, hvetted.2⟩

end Credentials

section SignedPlaylist

def plainSourceTables : SourceTables where
  isDecimal := Char.isDigit
  isSpace := (· = ' ')
  upper := fun c => [c.toUpper]
  letters := letter_ne_blank
  hidesDelimiter := fun _ => false
  isBracketedHost := fun _ => false
  lower := List.map Char.toLower
  unquotePlus := id
  hash := String.ofList

/-- A signed playlist, with a credential that nobody has allowed. -/
def signedPlaylist : IngestionRequest where
  sourceType := "xiaoe_hls"
  sourceRef := "https://user:pw@h/x.m3u8?sign=1".toList
  credentialRef := some ⟨"unlisted".toList, "vault"⟩

theorem not_credentialSafe_signedPlaylist : ¬ CredentialSafe plainSourceTables signedPlaylist [] [] := by
  intro hsafe
  have hcommand : (normalizeCommand plainSourceTables { signedPlaylist with
      allowedCredentialRefs := some [], allowedCredentialProviders := some [] }).toOption.any
        (·.credentialRefHash = some "unlisted") = true := by decide
  obtain ⟨command, hsome, hhash⟩ := (Option.any_eq_true _ _).mp hcommand
  obtain ⟨⟨credential, _, _, hlisted⟩, _⟩ := hsafe command (toOption_eq_some.mp hsome) _ (of_decide_eq_true hhash)
  exact List.not_mem_nil hlisted.1

end SignedPlaylist
end StockContent.Ingestion
