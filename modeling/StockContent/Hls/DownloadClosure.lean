import Mathlib.Algebra.GroupWithZero.Nat
import Mathlib.Logic.Relation
import StockContent.Hls.PlaylistDownload

/-! What a download leaves behind: the addresses of every playlist are names of files that were written. -/
namespace StockContent.Hls
open Storage Procedure Text

section Names
variable {D : Type} (rt : HlsRuntime D)

theorem FileName.append {name suffix : Chars} (h : FileName name) (hsuffix : ∀ c ∈ suffix, fileChar c = true) :
    FileName (name ++ suffix) :=
  ⟨fun hnil => h.nonempty (List.append_eq_nil_iff.mp hnil).1,
    fun c hc => (List.mem_append.mp hc).elim (h.chars c) (hsuffix c)⟩

theorem playlistName (url : Chars) : FileName (localName rt url ".m3u8".toList) :=
  (rt.digest_name url).append (List.all_eq_true.mp rfl)

theorem assetSuffix_chars {rt : HlsRuntime D} {url suffix : Chars} {kind : AssetKind} {hasMap : Bool}
    (h : hlsLocalAssetSuffix rt url kind hasMap = .ok suffix) : ∀ c ∈ suffix, fileChar c = true := by
  have hlisted : hlsMediaSuffixes.all (List.all · fileChar) = true := rfl
  rw [hlsLocalAssetSuffix] at h
  split at h
  · cases h
    exact List.all_eq_true.mp rfl
  · cases hpath : rt.pathSuffix url with
    | error e =>
      rw [hpath] at h
      cases h
    | ok found =>
      rw [hpath] at h
      cases h
      dsimp only
      split
      · rename_i hmem
        exact List.all_eq_true.mp (List.all_eq_true.mp hlisted found (List.contains_iff_mem.mp hmem))
      · split
        · split <;> exact List.all_eq_true.mp rfl
        · split <;> exact List.all_eq_true.mp rfl

end Names

section Closure
variable {D : Type} (rt : HlsRuntime D) (bounds : HlsBounds rt.seconds)

/-- The addresses of a playlist. -/
def urisOfText (text : Chars) : List Chars := (splitLines text).flatMap (urisOf rt.tables.toCharTables)

def Refers (files : Dict Chars HlsFile) (name uri : Chars) : Prop :=
  ∃ text, files.lookup name = some (.playlist text) ∧ uri ∈ urisOfText rt text

/-- A file of a call: written by it, or of a manifest whose lines are being rewritten. -/
def Settled (stack : List Chars) (s : HlsState D) (name : Chars) : Prop := name ∈ s.written ∨ name ∈ stack

/-- What holds between the steps of a call while the manifests of `stack` are rewritten. -/
structure Closed (stack : List Chars) (s : HlsState D) : Prop where
  playlists : ∀ entry ∈ s.playlists.rows, Settled stack s entry.2
  assets : ∀ entry ∈ s.assets.rows, Settled stack s entry.2
  names : ∀ name, Settled stack s name → FileName name
  files : ∀ name ∈ s.written, ∃ file, s.files.lookup name = some file
  uris : ∀ name ∈ s.written, ∀ uri, Refers rt s.files name uri → Settled stack s uri
  read : s.reads.sum = s.downloadedBytes
  bytes : s.downloadedBytes ≤ bounds.maxTotalBytes

/-- With names that are known to be settled. -/
structure Closing (stack known : List Chars) (s : HlsState D) : Prop where
  closed : Closed rt bounds stack s
  known : ∀ name ∈ known, Settled stack s name

variable {rt bounds} {stack known : List Chars} {s s' : HlsState D}

/-- A step that only reads. -/
theorem Closing.frame (h : Closing rt bounds stack known s) (hplaylists : s'.playlists = s.playlists)
    (hassets : s'.assets = s.assets) (hwritten : s'.written = s.written) (hfiles : s'.files = s.files)
    (hread : s'.reads.sum = s'.downloadedBytes) (hbytes : s'.downloadedBytes ≤ bounds.maxTotalBytes) :
    Closing rt bounds stack known s' := by
  have hsettled (name : Chars) : Settled stack s' name ↔ Settled stack s name := by rw [Settled, hwritten, Settled]
  refine ⟨⟨?_, ?_, ?_, ?_, ?_, hread, hbytes⟩, ?_⟩
  · intro entry hentry
    rw [hplaylists] at hentry
    exact (hsettled _).mpr (h.closed.playlists entry hentry)
  · intro entry hentry
    rw [hassets] at hentry
    exact (hsettled _).mpr (h.closed.assets entry hentry)
  · exact fun name hname => h.closed.names name ((hsettled name).mp hname)
  · rw [hwritten, hfiles]
    exact h.closed.files
  · rw [hwritten, hfiles]
    exact fun name hname uri huri => (hsettled uri).mpr (h.closed.uris name hname uri huri)
  · exact fun name hname => (hsettled name).mpr (h.known name hname)

theorem Closing.sub {known' : List Chars} (h : Closing rt bounds stack known s) (hsub : ∀ name ∈ known', name ∈ known) :
    Closing rt bounds stack known' s := ⟨h.closed, fun name hmem => h.known name (hsub name hmem)⟩

/-- A file that is written: its addresses are settled, and its name is from then on. -/
theorem Closing.write {output : Chars} {file : HlsFile} {stack' : List Chars} (h : Closing rt bounds stack' known s)
    (hname : FileName output) (hstack : ∀ name ∈ stack', name = output ∨ name ∈ stack)
    (hsub : ∀ name ∈ stack, FileName name)
    (huris : ∀ text, file = .playlist text → ∀ uri ∈ urisOfText rt text, Settled stack' s uri)
    (hplaylists : s'.playlists = s.playlists)
    (hassets : ∀ entry ∈ s'.assets.rows, entry ∈ s.assets.rows ∨ entry.2 = output)
    (hwritten : s'.written = s.written ++ [output]) (hfiles : s'.files = s.files.set output file)
    (hread : s'.reads.sum = s'.downloadedBytes) (hbytes : s'.downloadedBytes ≤ bounds.maxTotalBytes) :
    Closing rt bounds stack (output :: known) s' := by
  have houtput : Settled stack s' output := by
    rw [Settled, hwritten]
    exact .inl (List.mem_append_right _ (List.mem_singleton_self output))
  have hsettled (name : Chars) (hold : Settled stack' s name) : Settled stack s' name := by
    rcases hold with hold | hold
    · rw [Settled, hwritten]
      exact .inl (List.mem_append_left _ hold)
    · rcases hstack name hold with rfl | hold
      · exact houtput
      · exact .inr hold
  have hlookup (name : Chars) : s'.files.lookup name = if output = name then some file else s.files.lookup name := by
    rw [hfiles, Dict.lookup_set]
  refine ⟨⟨?_, ?_, ?_, ?_, ?_, hread, hbytes⟩, ?_⟩
  · intro entry hentry
    rw [hplaylists] at hentry
    exact hsettled _ (h.closed.playlists entry hentry)
  · intro entry hentry
    rcases hassets entry hentry with hold | hnew
    · exact hsettled _ (h.closed.assets entry hold)
    · rw [hnew]
      exact houtput
  · intro name hsettled'
    rcases hsettled' with hmem | hmem
    · rw [hwritten] at hmem
      rcases List.mem_append.mp hmem with hmem | hmem
      · exact h.closed.names name (.inl hmem)
      · rw [List.mem_singleton.mp hmem]
        exact hname
    · exact hsub name hmem
  · intro name hmem
    rw [hlookup]
    by_cases hkey : output = name
    · exact ⟨file, if_pos hkey⟩
    · rw [if_neg hkey]
      rw [hwritten] at hmem
      rcases List.mem_append.mp hmem with hmem | hmem
      · exact h.closed.files name hmem
      · exact absurd (List.mem_singleton.mp hmem).symm hkey
  · intro name hmem uri huri
    obtain ⟨text, htext, huri⟩ := huri
    rw [hlookup] at htext
    by_cases hkey : output = name
    · rw [if_pos hkey] at htext
      exact hsettled uri (huris text (Option.some.inj htext) uri huri)
    · rw [if_neg hkey] at htext
      rw [hwritten] at hmem
      rcases List.mem_append.mp hmem with hmem | hmem
      · exact hsettled uri (h.closed.uris name hmem uri ⟨text, htext, huri⟩)
      · exact absurd (List.mem_singleton.mp hmem).symm hkey
  · intro name hmem
    rcases List.mem_cons.mp hmem with rfl | hmem
    · exact houtput
    · exact hsettled name (h.known name hmem)

/-- What keeps the names that are known, and adds some to them. -/
abbrev Adds (rt : HlsRuntime D) (bounds : HlsBounds rt.seconds) (stack known : List Chars) {A : Type}
    (x : Procedure (HlsState D) HlsError A) (names : A → List Chars) : Prop :=
  Triple (Closing rt bounds stack known) x (fun a => Closing rt bounds stack (names a ++ known)) (fun _ _ => True)

theorem attempt_adds {A : Type} (x : Except HlsError A) : Adds rt bounds stack known (attempt x) fun _ => [] :=
  Triple.attempt (fun _ _ _ h => h) fun _ _ _ _ => trivial

theorem requestManifest_adds (remoteUrl : Chars) (depth : Nat) :
    Adds rt bounds stack known (requestManifest rt bounds remoteUrl depth) fun _ => [] := by
  refine Triple.step fun s h => ?_
  split
  · trivial
  · dsimp only
    split
    · trivial
    · rename_i response _
      rw [readManifest]
      dsimp only
      split
      · trivial
      · split
        · trivial
        · split
          · trivial
          · split
            · trivial
            · rename_i hremaining
              have hread := h.closed.read
              have hbytes := h.closed.bytes
              refine h.frame rfl rfl rfl rfl ?_ ?_
              · change (s.reads ++ [_]).sum = _
                rw [List.sum_append, List.sum_singleton, hread]
              · change s.downloadedBytes + _ ≤ _
                omega

theorem register_adds (remoteUrl finalUrl : Chars) :
    Triple (Closing rt bounds stack known) (register rt remoteUrl finalUrl (localName rt finalUrl ".m3u8".toList))
      (fun _ => Closing rt bounds (localName rt finalUrl ".m3u8".toList :: stack) known) (fun _ _ => True) := by
  refine Triple.step fun s h => ?_
  have hname := playlistName rt finalUrl
  generalize localName rt finalUrl ".m3u8".toList = output at hname ⊢
  have hsettled (name : Chars) (hold : Settled stack s name) : Settled (output :: stack) s name :=
    hold.imp_right (List.mem_cons_of_mem output)
  have houtput : Settled (output :: stack) s output := .inr List.mem_cons_self
  refine ⟨⟨?_, ?_, ?_, h.closed.files, ?_, h.closed.read, h.closed.bytes⟩, ?_⟩
  · intro entry hentry
    rcases Dict.mem_set hentry with rfl | hentry
    · exact houtput
    · rcases Dict.mem_set hentry with rfl | hentry
      · exact houtput
      · exact hsettled _ (h.closed.playlists entry hentry)
  · exact fun entry hentry => hsettled _ (h.closed.assets entry hentry)
  · intro name hmem
    rcases hmem with hmem | hmem
    · exact h.closed.names name (.inl hmem)
    · rcases List.mem_cons.mp hmem with rfl | hmem
      · exact hname
      · exact h.closed.names name (.inr hmem)
  · exact fun name hmem uri huri => hsettled uri (h.closed.uris name hmem uri huri)
  · exact fun name hmem => hsettled name (h.known name hmem)

theorem addDuration_adds (output stripped : Chars) :
    Adds rt bounds stack known (addDuration rt bounds output stripped) fun _ => [] := by
  refine Triple.step fun s h => ?_
  split
  · trivial
  · dsimp only
    split
    · trivial
    · exact h.frame rfl rfl rfl rfl h.closed.read h.closed.bytes

theorem fetchAsset_adds (remoteUrl : Chars) (kind : AssetKind) (hasMap : Bool) :
    Adds rt bounds stack known (fetchAsset rt bounds remoteUrl kind hasMap) fun name => [name] := by
  refine Triple.step fun s h => ?_
  split
  · rename_i output hlookup
    exact ⟨h.closed, List.forall_mem_cons.mpr ⟨h.closed.assets _ (Dict.lookup_eq_some.mp hlookup), h.known⟩⟩
  · split
    · trivial
    · split
      · trivial
      · split
        · trivial
        · rename_i suffix hsuffix
          rw [downloadAsset]
          dsimp only
          split
          · trivial
          · split
            · trivial
            · split
              · trivial
              · rename_i hremaining
                have hread := h.closed.read
                have hbytes := h.closed.bytes
                have hname : FileName (localName rt remoteUrl suffix) :=
                  (rt.digest_name remoteUrl).append (assetSuffix_chars hsuffix)
                refine h.write hname (fun _ hmem => .inr hmem) (fun name hmem => h.closed.names name (.inr hmem))
                  (fun text htext => ?_) rfl ?_ rfl rfl ?_ ?_
                · cases htext
                · intro entry hentry
                  rcases Dict.mem_set hentry with rfl | hentry
                  · exact .inr rfl
                  · exact .inl hentry
                · change (s.reads ++ [_]).sum = _
                  rw [List.sum_append, List.sum_singleton, hread]
                · change s.downloadedBytes + _ ≤ _
                  omega

section Lines
variable {descend : Chars → Procedure (HlsState D) HlsError Chars} {manifest : Manifest}

theorem Closing.head_name {name : Chars} (h : Closing rt bounds stack (name :: known) s) : FileName name :=
  h.closed.names name (h.known name List.mem_cons_self)

theorem fetchPart_adds (hdescend : ∀ known url, Adds rt bounds stack known (descend url) fun name => [name])
    (tag remote : Chars) :
    Adds rt bounds stack known (fetchPart rt bounds descend manifest tag remote) fun name => [name] := by
  rw [fetchPart]
  split
  · exact hdescend known remote
  · exact fetchAsset_adds remote _ _

/-- The addresses that were put in are names of the call. -/
theorem replaceParts_adds (hdescend : ∀ known url, Adds rt bounds stack known (descend url) fun name => [name])
    (tag : Chars) (parts : List Part) :
    Triple (Closing rt bounds stack known) (replaceParts rt bounds descend manifest tag parts)
      (fun parts' s => List.Forall₂ Replaced parts parts' ∧
        Closing rt bounds stack (parts'.filterMap Part.value? ++ known) s) (fun _ _ => True) := by
  induction parts generalizing known with
  | nil => exact Triple.pure fun s h => ⟨.nil, h⟩
  | cons part parts ih =>
    cases part with
    | char c =>
      have hchar : Triple (Closing rt bounds stack known) (replacePart rt bounds descend manifest tag (.char c))
          (fun part s => part = .char c ∧ Closing rt bounds stack known s) (fun _ _ => True) :=
        Triple.pure fun s h => ⟨rfl, h⟩
      refine hchar.bind fun part => Triple.fact fun hpart => ?_
      refine ih.bind fun rest => Triple.pure fun s h => ?_
      rw [hpart]
      exact ⟨.cons (.char c) h.1, h.2⟩
    | uri quoted value =>
      have huri : Triple (Closing rt bounds stack known)
          (replacePart rt bounds descend manifest tag (.uri quoted value))
          (fun part s => ∃ name, part = .uri quoted name ∧ Closing rt bounds stack (name :: known) s)
          (fun _ _ => True) := by
        refine (attempt_adds _).bind fun remote => (fetchPart_adds hdescend tag remote).bind fun name => ?_
        exact Triple.pure fun s h => ⟨name, rfl, h⟩
      refine huri.bind fun part => ?_
      intro s hs
      obtain ⟨name, rfl, h⟩ := hs
      have hname := h.head_name
      refine Triple.bind ih (fun rest => Triple.pure fun s hrest => ?_) s h
      refine ⟨.cons (.uri quoted value hname) hrest.1, hrest.2.closed, fun other hmem => hrest.2.known other ?_⟩
      rcases List.mem_append.mp hmem with hmem | hmem
      · rcases List.mem_cons.mp hmem with rfl | hmem
        · exact List.mem_append_right _ List.mem_cons_self
        · exact List.mem_append_left _ hmem
      · exact List.mem_append_right _ (List.mem_cons_of_mem _ hmem)

/-- Lines without breaks whose addresses are names of the call. -/
def AddsLines (rt : HlsRuntime D) (bounds : HlsBounds rt.seconds) (stack known : List Chars) (lines : List Chars)
    (s : HlsState D) : Prop :=
  (∀ line ∈ lines, Unbroken line) ∧
    Closing rt bounds stack (lines.flatMap (urisOf rt.tables.toCharTables) ++ known) s

theorem addsLines_single {line : Chars} (hline : Unbroken line)
    (h : Closing rt bounds stack (urisOf rt.tables.toCharTables line ++ known) s) :
    AddsLines rt bounds stack known [line] s := by
  refine ⟨fun other hother => ?_, ?_⟩
  · rw [List.mem_singleton.mp hother]
    exact hline
  · rw [List.flatMap_cons, List.flatMap_nil, List.append_nil]
    exact h

theorem replaceUris_adds (hdescend : ∀ known url, Adds rt bounds stack known (descend url) fun name => [name])
    {line : Chars} (hline : Unbroken line) (htag : isTag rt.tables.toCharTables line = true) :
    Triple (Closing rt bounds stack known) (replaceUris rt bounds descend manifest line)
      (fun replaced => AddsLines rt bounds stack known [replaced]) (fun _ _ => True) := by
  rw [replaceUris]
  split
  · refine (replaceParts_adds hdescend _ _).bind fun parts' => Triple.pure fun s h => ?_
    refine addsLines_single (render_unbroken hline h.1) ?_
    rw [urisOf_replaced htag h.1]
    exact h.2
  · rename_i hmark
    refine Triple.pure fun s h => addsLines_single hline ?_
    rw [urisOf_unmarked htag hmark]
    exact h

theorem planDuration_adds (line : Chars) :
    Adds rt bounds stack known (planDuration rt bounds manifest line) fun _ => [] := by
  rw [planDuration]
  split
  · exact addDuration_adds _ _
  · exact Triple.pure fun _ h => h

theorem rewriteTag_adds (hdescend : ∀ known url, Adds rt bounds stack known (descend url) fun name => [name])
    {line : Chars} (hline : Unbroken line) (htag : isTag rt.tables.toCharTables line = true) :
    Triple (Closing rt bounds stack known) (rewriteTag rt bounds descend manifest line)
      (fun result => AddsLines rt bounds stack known result.1.toList) (fun _ _ => True) :=
  (planDuration_adds line).bind fun _ => (replaceUris_adds hdescend hline htag).bind fun _ => Triple.pure fun _ h => h

theorem rewriteUri_adds (hdescend : ∀ known url, Adds rt bounds stack known (descend url) fun name => [name])
    (line : Chars) (pendingVariant : Bool) :
    Triple (Closing rt bounds stack known) (rewriteUri rt bounds descend manifest line pendingVariant)
      (fun result => AddsLines rt bounds stack known result.1.toList) (fun _ _ => True) := by
  have hfetch (remote : Chars) : Adds rt bounds stack known
      (fetchLine rt bounds descend manifest remote pendingVariant) fun name => [name] := by
    rw [fetchLine]
    split
    · exact hdescend known remote
    · exact fetchAsset_adds remote _ _
  refine (attempt_adds _).bind fun remote => (hfetch remote).bind fun name => Triple.pure fun s h => ?_
  have hname := h.head_name
  refine addsLines_single hname.unbroken ?_
  rw [urisOf_name hname]
  exact h

/-- A line that is left out has no addresses, and neither has a blank one. -/
theorem rewriteLine_adds (hdescend : ∀ known url, Adds rt bounds stack known (descend url) fun name => [name])
    (index : Nat) {line : Chars} (hline : Unbroken line) (pendingVariant : Bool) :
    Triple (Closing rt bounds stack known) (rewriteLine rt bounds descend manifest index line pendingVariant)
      (fun result => AddsLines rt bounds stack known result.1.toList) (fun _ _ => True) := by
  rw [rewriteLine]
  split
  · exact Triple.pure fun s h => ⟨fun _ hmem => (by cases hmem), h⟩
  · split
    · rename_i htag
      exact rewriteTag_adds hdescend hline htag
    · rename_i htag
      split
      · rename_i hblank
        refine Triple.pure fun s h => addsLines_single hline ?_
        rw [urisOf, if_neg htag, if_pos hblank]
        exact h
      · exact rewriteUri_adds hdescend line pendingVariant

theorem rewriteLines_adds (hdescend : ∀ known url, Adds rt bounds stack known (descend url) fun name => [name])
    {lines : List (Chars × Nat)} (hlines : ∀ entry ∈ lines, Unbroken entry.1) (pendingVariant : Bool) :
    Triple (Closing rt bounds stack known) (rewriteLines rt bounds descend manifest lines pendingVariant)
      (fun rewritten => AddsLines rt bounds stack known rewritten) (fun _ _ => True) := by
  induction lines generalizing known pendingVariant with
  | nil => exact Triple.pure fun s h => ⟨fun _ hmem => (by cases hmem), h⟩
  | cons entry lines ih =>
    obtain ⟨hline, hlines⟩ := List.forall_mem_cons.mp hlines
    refine (rewriteLine_adds hdescend entry.2 hline pendingVariant).bind fun result => Triple.fact fun hfirst => ?_
    refine (ih hlines result.2).bind fun rewritten => Triple.pure fun s h => ⟨?_, ?_⟩
    · exact fun line hmem => (List.mem_append.mp hmem).elim (hfirst line) (h.1 line)
    · refine h.2.sub fun name hmem => ?_
      rw [List.flatMap_append, List.mem_append, List.mem_append] at hmem
      rw [List.mem_append, List.mem_append]
      tauto

end Lines

/-- The playlist that is written has the addresses of its lines. -/
theorem urisOfText_joinLines {lines : List Chars} (hlines : ∀ line ∈ lines, Unbroken line) :
    urisOfText rt (joinLines lines) = lines.flatMap (urisOf rt.tables.toCharTables) := by
  by_cases hnil : lines = []
  · subst hnil
    rfl
  · rw [urisOfText, splitLines_joinLines hlines hnil]

theorem writePlaylist_adds {output : Chars} (hname : FileName output) (rewritten : List Chars) :
    Triple (AddsLines rt bounds (output :: stack) known rewritten) (writePlaylist output rewritten)
      (fun _ => Closing rt bounds stack (output :: known)) (fun _ _ => True) := by
  refine Triple.step fun s h => ?_
  obtain ⟨hlines, h⟩ := h
  have hknown : Closing rt bounds (output :: stack) known s := h.sub fun _ hmem => List.mem_append_right _ hmem
  refine hknown.write hname (fun _ hmem => List.mem_cons.mp hmem)
    (fun name hmem => h.closed.names name (.inr (List.mem_cons_of_mem _ hmem))) ?_ rfl (fun _ hmem => .inl hmem) rfl rfl
    h.closed.read h.closed.bytes
  intro text htext uri huri
  cases htext
  rw [urisOfText_joinLines hlines] at huri
  exact h.known uri (List.mem_append_left _ huri)

theorem materialize_adds {descend : Chars → Procedure (HlsState D) HlsError Chars}
    (hdescend : ∀ stack known url, Adds rt bounds stack known (descend url) fun name => [name]) (remoteUrl : Chars)
    (depth : Nat) : Adds rt bounds stack known (materialize rt bounds descend remoteUrl depth) fun name => [name] := by
  refine (requestManifest_adds remoteUrl depth).bind fun response => (attempt_adds _).bind fun text => ?_
  refine (register_adds remoteUrl response.finalUrl).bind fun _ => ?_
  have hname := playlistName rt response.finalUrl
  have hlines : ∀ entry ∈ (splitLines text).zipIdx, Unbroken entry.1 :=
    fun entry hentry => splitLines_unbroken (List.fst_mem_of_mem_zipIdx hentry)
  refine (rewriteLines_adds (hdescend _) hlines false).bind fun rewritten => ?_
  have hcheck : Triple
      (AddsLines rt bounds (localName rt response.finalUrl ".m3u8".toList :: stack) known rewritten)
      (attempt (checkRewritten rt rewritten))
      (fun _ => AddsLines rt bounds (localName rt response.finalUrl ".m3u8".toList :: stack) known rewritten)
      (fun _ _ => True) := Triple.attempt (fun _ _ _ h => h) fun _ _ _ _ => trivial
  exact hcheck.bind fun _ => (writePlaylist_adds hname rewritten).bind fun _ => Triple.pure fun _ h => h

theorem fetchManifest_adds (levels depth : Nat) (stack known : List Chars) (remoteUrl : Chars) :
    Adds rt bounds stack known (fetchManifest rt bounds levels depth remoteUrl) fun name => [name] := by
  induction levels generalizing depth stack known remoteUrl with
  | zero => exact Triple.throw fun _ _ => trivial
  | succ levels ih =>
    have hknown : Triple (Closing rt bounds stack known)
        (step fun s : HlsState D => (s, (.ok (s.playlists.lookup remoteUrl) : Except HlsError (Option Chars))))
        (fun found s => Closing rt bounds stack known s ∧ s.playlists.lookup remoteUrl = found) (fun _ _ => True) :=
      Triple.step fun s h => ⟨h, rfl⟩
    refine hknown.bind fun found => ?_
    cases found with
    | some output =>
      refine Triple.pure fun s h => ⟨h.1.closed, List.forall_mem_cons.mpr ⟨?_, h.1.known⟩⟩
      exact h.1.closed.playlists (remoteUrl, output) (Dict.lookup_eq_some.mp h.2)
    | none => exact (materialize_adds (ih (depth + 1)) remoteUrl depth).pre fun s h => h.1

theorem start_closed (files : Dict Chars HlsFile) : Closing rt bounds [] [] { files := files } where
  closed :=
    { playlists := fun _ h => by cases h
      assets := fun _ h => by cases h
      names := fun _ h => by rcases h with h | h <;> cases h
      files := fun _ h => by cases h
      uris := fun _ h => by cases h
      read := rfl
      bytes := Nat.zero_le _ }
  known _ h := by cases h

end Closure

section Calls
variable {D : Type} (rt : HlsRuntime D)

/-- A playlist that can be reached from another one. -/
def Reaches (files : Dict Chars HlsFile) : Chars → Chars → Prop := Relation.ReflTransGen (Refers rt files)

/-- What a call promises whose playlist is read from the cache directory. -/
structure Materialised (limits : HlsLimits D) (outcome : HlsOutcome D) (output : Chars) : Prop where
  written : output ∈ outcome.run.written
  uris : ∃ files, outcome.cache = some files ∧ ∀ name uri, Reaches rt files output name → Refers rt files name uri →
    FileName uri ∧ uri ∈ outcome.run.written ∧ ∃ file, files.lookup uri = some file
  bytes : (outcome.run.reads.sum : Int) ≤ limits.maxTotalBytes

/-- Whatever is returned is closed, and nothing is left behind by a call that raises. -/
structure HlsMaterialised (limits : HlsLimits D) (outcome : HlsOutcome D) : Prop where
  returned : ∀ output, outcome.result = .ok output → Materialised rt limits outcome output
  raised : ∀ e, outcome.result = .error e → outcome.cache = none

/-- Arguments that are refused leave the cache directory as it is. -/
structure HlsMaterialisedIfAccepted (limits : HlsLimits D) (headers : List (Chars × Chars))
    (cache : Option (Dict Chars HlsFile)) (outcome : HlsOutcome D) : Prop where
  returned : ∀ output, outcome.result = .ok output → Materialised rt limits outcome output
  raised : ∀ bounds e, checkArguments rt limits headers = .ok bounds → outcome.result = .error e → outcome.cache = none
  refused : ∀ e, checkArguments rt limits headers = .error e →
    outcome.result = .error e ∧ outcome.cache = cache ∧ outcome.run.requests = 0

variable {rt} {limits : HlsLimits D} {headers : List (Chars × Chars)} {bounds : HlsBounds rt.seconds}

theorem checkArguments_maxTotalBytes (h : checkArguments rt limits headers = .ok bounds) :
    (bounds.maxTotalBytes : Int) ≤ limits.maxTotalBytes := by
  rw [checkArguments] at h
  obtain ⟨accepted, haccepted, h⟩ := bind_eq_ok.mp h
  obtain ⟨_, _, h⟩ := bind_eq_ok.mp h
  cases h
  rw [checkLimits] at haccepted
  split at haccepted
  · split at haccepted
    · cases haccepted
    · rename_i hlimits
      cases haccepted
      simp only [Bool.or_eq_true, decide_eq_true_eq] at hlimits
      change ((limits.maxTotalBytes.toNat : Nat) : Int) ≤ limits.maxTotalBytes
      omega
  · cases haccepted

/-- What is reached from a name of the call is one. -/
theorem Closed.reaches {s : HlsState D} (h : Closed rt bounds [] s) {output name : Chars} (houtput : output ∈ s.written)
    (hreaches : Reaches rt s.files output name) : name ∈ s.written := by
  induction hreaches with
  | refl => exact houtput
  | tail _ hrefers ih => exact (h.uris _ ih _ hrefers).resolve_right List.not_mem_nil

theorem Closing.materialised {s : HlsState D} {output : Chars} (h : Closing rt bounds [] [output] s)
    (hbounds : checkArguments rt limits headers = .ok bounds) :
    Materialised rt limits ⟨s, some s.files, .ok output⟩ output := by
  have houtput : output ∈ s.written := (h.known output List.mem_cons_self).resolve_right List.not_mem_nil
  refine ⟨houtput, ⟨s.files, rfl, fun name uri hreaches hrefers => ?_⟩, ?_⟩
  · have hname := h.closed.reaches houtput hreaches
    have huri : uri ∈ s.written := (h.closed.uris name hname uri hrefers).resolve_right List.not_mem_nil
    exact ⟨h.closed.names uri (.inl huri), huri, h.closed.files uri huri⟩
  · have hread := h.closed.read
    have hbytes := h.closed.bytes
    have htotal := checkArguments_maxTotalBytes hbounds
    change ((s.reads.sum : Nat) : Int) ≤ limits.maxTotalBytes
    omega

/-- On every network, for every graph of manifests. -/
theorem hls_materialisation (rt : HlsRuntime D) (sourceUrl : Chars) (limits : HlsLimits D)
    (headers : List (Chars × Chars)) (cache : Option (Dict Chars HlsFile)) :
    HlsMaterialisedIfAccepted rt limits headers cache (downloadHlsPlaylist rt sourceUrl limits headers cache) := by
  rw [downloadHlsPlaylist]
  cases hbounds : checkArguments rt limits headers with
  | error e =>
    refine ⟨fun _ h => ?_, fun _ _ h => ?_, fun e' h => ?_⟩
    · cases h
    · rw [hbounds] at h
      cases h
    · rw [hbounds] at h
      cases h
      exact ⟨rfl, rfl, rfl⟩
  | ok bounds =>
    have hspec : Adds rt bounds [] [] (fetchManifest rt bounds (bounds.maxDepth + 1) 0 sourceUrl) fun name => [name] :=
      fetchManifest_adds (bounds.maxDepth + 1) 0 [] [] sourceUrl
    have hrun := hspec { files := cache.getD Table.empty } (start_closed _)
    revert hrun
    dsimp only
    cases (fetchManifest rt bounds (bounds.maxDepth + 1) 0 sourceUrl).exec { files := cache.getD Table.empty } with
    | mk s result =>
      cases result with
      | ok output =>
        intro h
        refine ⟨fun output' houtput => ?_, fun _ _ _ h => ?_, fun _ h => ?_⟩
        · cases houtput
          exact h.materialised hbounds
        · cases h
        · rw [hbounds] at h
          cases h
      | error e =>
        intro _
        refine ⟨fun _ h => ?_, fun _ _ _ _ => rfl, fun _ h => ?_⟩
        · cases h
        · rw [hbounds] at h
          cases h

/-- A depth below zero is refused before the directory is touched. -/
theorem refused_call_keeps_cache : ¬ HlsMaterialised (asciiRuntime fun url => (url, "#EXTM3U\n"))
    ({ maxDepth := -1, maxPlannedDuration := 60 } : HlsLimits Nat)
    (downloadHlsPlaylist (asciiRuntime fun url => (url, "#EXTM3U\n")) "s".toList
      { maxDepth := -1, maxPlannedDuration := 60 } [] (some Table.empty)) := by
  intro h
  have hgone := h.raised (.valueError "HLS resource limits must be positive") rfl
  cases hgone

end Calls
end StockContent.Hls
