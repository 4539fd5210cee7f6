import StockContent.Hls.PlaylistDownload

/-! The limits of a download, on every network. -/
namespace StockContent.Hls
open Storage Procedure Text

section Limits
variable {D : Type} (rt : HlsRuntime D) (bounds : HlsBounds rt.seconds)

/-- What was planned for an output, over all the times it was fetched. -/
def plannedTotal (s : HlsState D) (output : Chars) : D :=
  ((s.durations.filter (·.1 = output)).map Prod.snd).foldl rt.seconds.add rt.seconds.zero

/-- No more requests than allowed, none too deep, and no output planned beyond the maximum. -/
structure WithinLimits (s : HlsState D) : Prop where
  manifests : s.opened.length ≤ bounds.maxPlaylists
  assets : s.downloads.length ≤ bounds.maxAssets
  depth : ∀ request ∈ s.opened, request.2 ≤ bounds.maxDepth
  durations : ∀ output, rt.seconds.exceeds (plannedTotal rt s output) bounds.maxPlannedDuration = false

/-- What holds also where a call raises. -/
structure Limited (s : HlsState D) : Prop where
  manifests : s.delivered.Nodup → s.opened.length ≤ bounds.maxPlaylists
  assets : s.downloads.length ≤ bounds.maxAssets
  depth : ∀ request ∈ s.opened, request.2 ≤ bounds.maxDepth
  durations : s.delivered.Nodup → ∀ output,
    rt.seconds.exceeds (plannedTotal rt s output) bounds.maxPlannedDuration = false

/-- What holds between the steps of a call, with `pending` requests whose manifest is not registered. -/
structure Accounted (pending : Nat) (s : HlsState D) : Prop extends Limited rt bounds s where
  requested : s.opened.length = s.delivered.length + pending
  downloaded : s.downloads.length = s.assets.rows.length
  outputs : ∀ entry ∈ s.playlists.rows, entry.2 ∈ s.delivered
  finals : ∀ output ∈ s.delivered, ∃ finalUrl, output = localName rt finalUrl ".m3u8".toList ∧
    s.playlists.lookup finalUrl = some output
  timed : ∀ entry ∈ s.durations, entry.1 ∈ s.delivered
  planned : s.delivered.Nodup → ∀ output, (s.planned.lookup output).getD rt.seconds.zero = plannedTotal rt s output

variable {rt bounds} {pending : Nat} {s s' : HlsState D}

theorem plannedTotal_congr (h : s'.durations = s.durations) (output : Chars) :
    plannedTotal rt s' output = plannedTotal rt s output := by
  rw [plannedTotal, h, plannedTotal]

theorem Limited.within (h : Limited rt bounds s) (hn : s.delivered.Nodup) : WithinLimits rt bounds s :=
  ⟨h.manifests hn, h.assets, h.depth, h.durations hn⟩

/-- Where no output was delivered twice, the outputs are as many as the manifests that were delivered. -/
theorem Accounted.distinct (h : Accounted rt bounds pending s) (hn : s.delivered.Nodup) :
    (s.playlists.rows.map Prod.snd).dedup.length = s.delivered.length := by
  have hperm : (s.playlists.rows.map Prod.snd).dedup.Perm s.delivered := by
    refine (List.perm_ext_iff_of_nodup (List.nodup_dedup _) hn).mpr fun output => ?_
    rw [List.mem_dedup, List.mem_map]
    constructor
    · intro hmem
      obtain ⟨entry, hentry, rfl⟩ := hmem
      exact h.outputs entry hentry
    · intro hmem
      obtain ⟨finalUrl, _, hlookup⟩ := h.finals output hmem
      exact ⟨(finalUrl, output), Dict.lookup_eq_some.mp hlookup, rfl⟩
  exact hperm.length_eq

/-- A step that leaves alone what is accounted for. -/
theorem Accounted.frame (h : Accounted rt bounds pending s) (hopened : s'.opened = s.opened)
    (hdelivered : s'.delivered = s.delivered) (hdownloads : s'.downloads = s.downloads)
    (hassets : s'.assets = s.assets) (hplaylists : s'.playlists = s.playlists)
    (hdurations : s'.durations = s.durations) (hplanned : s'.planned = s.planned) :
    Accounted rt bounds pending s' where
  manifests := by rw [hdelivered, hopened]; exact h.manifests
  assets := by rw [hdownloads]; exact h.assets
  depth := by rw [hopened]; exact h.depth
  durations hn output := by
    rw [plannedTotal_congr hdurations]
    exact h.durations (hdelivered ▸ hn) output
  requested := by rw [hopened, hdelivered]; exact h.requested
  downloaded := by rw [hdownloads, hassets]; exact h.downloaded
  outputs := by rw [hplaylists, hdelivered]; exact h.outputs
  finals := by rw [hdelivered, hplaylists]; exact h.finals
  timed := by rw [hdurations, hdelivered]; exact h.timed
  planned hn output := by
    rw [plannedTotal_congr hdurations, hplanned]
    exact h.planned (hdelivered ▸ hn) output

/-- Between two lines of the manifests whose outputs are given. -/
structure Current (rt : HlsRuntime D) (bounds : HlsBounds rt.seconds) (outputs : List Chars) (s : HlsState D) : Prop where
  accounted : Accounted rt bounds 0 s
  kept : ∀ output ∈ outputs, output ∈ s.delivered

/-- Between the request of a manifest and its registration its address is not known. -/
structure Unknown (rt : HlsRuntime D) (bounds : HlsBounds rt.seconds) (outputs : List Chars) (pending : Nat)
    (remoteUrl : Chars) (s : HlsState D) : Prop where
  accounted : Accounted rt bounds pending s
  kept : ∀ output ∈ outputs, output ∈ s.delivered
  unknown : s.playlists.lookup remoteUrl = none

variable {outputs : List Chars} {remoteUrl : Chars} {depth : Nat}

theorem readManifest_spec (h : Unknown rt bounds outputs pending remoteUrl s) (response : HlsResponse) :
    Holds (fun _ => Unknown rt bounds outputs pending remoteUrl) (fun _ => Limited rt bounds)
      (readManifest rt bounds s response) := by
  have hread (reads : List Nat) (downloadedBytes : Nat) : Unknown rt bounds outputs pending remoteUrl
      { s with reads := reads, downloadedBytes := downloadedBytes } :=
    ⟨h.accounted.frame rfl rfl rfl rfl rfl rfl rfl, h.kept, h.unknown⟩
  rw [readManifest]
  dsimp only
  split
  · exact h.accounted.toLimited
  · split
    · exact h.accounted.toLimited
    · split
      · exact (hread _ s.downloadedBytes).accounted.toLimited
      · split
        · exact (hread _ s.downloadedBytes).accounted.toLimited
        · exact hread _ _

/-- A request that the limit lets through is one more, and not too many. -/
theorem requestManifest_spec (hdepth : depth ≤ bounds.maxDepth) :
    Triple (Unknown rt bounds outputs 0 remoteUrl) (requestManifest rt bounds remoteUrl depth)
      (fun _ => Unknown rt bounds outputs 1 remoteUrl) (fun _ => Limited rt bounds) := by
  refine .step fun s hs => ?_
  obtain ⟨h, hkept, hfree⟩ := hs
  dsimp only
  split
  · exact h.toLimited
  · rename_i hlimit
    have hrequested := h.requested
    have hcount : s.delivered.Nodup → s.opened.length + 1 ≤ bounds.maxPlaylists := by
      intro hn
      have hdistinct := h.distinct hn
      omega
    have hasked : Unknown rt bounds outputs 1 remoteUrl
        { s with requests := s.requests + 1, opened := s.opened ++ [(remoteUrl, depth)] } := by
      refine ⟨{ h with manifests := ?_, depth := ?_, requested := ?_ }, hkept, hfree⟩
      · intro hn
        rw [List.length_append, List.length_singleton]
        exact hcount hn
      · intro request hrequest
        rcases List.mem_append.mp hrequest with hrequest | hrequest
        · exact h.depth request hrequest
        · rw [List.mem_singleton.mp hrequest]
          exact hdepth
      · change (s.opened ++ [(remoteUrl, depth)]).length = s.delivered.length + 1
        rw [List.length_append, List.length_singleton, hrequested]
    cases rt.openResponse s.requests remoteUrl with
    | error e => exact hasked.accounted.toLimited
    | ok response => exact readManifest_spec hasked response

/-- A manifest that is registered. Where its output is a new one nothing was planned for it yet. -/
theorem register_spec (finalUrl : Chars) :
    Triple (Unknown rt bounds outputs 1 remoteUrl)
      (register rt remoteUrl finalUrl (localName rt finalUrl ".m3u8".toList))
      (fun _ => Current rt bounds (localName rt finalUrl ".m3u8".toList :: outputs)) (fun _ => Limited rt bounds) := by
  refine .step fun s hs => ?_
  obtain ⟨h, hkept, hfree⟩ := hs
  generalize houtput : localName rt finalUrl ".m3u8".toList = output
  have hnodup (hn : (s.delivered ++ [output]).Nodup) : s.delivered.Nodup ∧ output ∉ s.delivered := by
    rw [List.nodup_append] at hn
    exact ⟨hn.1, fun hmem => hn.2.2 output hmem output (List.mem_singleton_self output) rfl⟩
  refine ⟨{ h with
    manifests := ?_, durations := ?_, requested := ?_, outputs := ?_, finals := ?_, timed := ?_, planned := ?_ }, ?_⟩
  · exact fun hn => h.manifests (hnodup hn).1
  · exact fun hn => h.durations (hnodup hn).1
  · have hrequested := h.requested
    rw [List.length_append, List.length_singleton]
    omega
  · intro entry hentry
    rcases Dict.mem_set hentry with rfl | hentry
    · exact List.mem_append_right _ (List.mem_singleton_self output)
    · rcases Dict.mem_set hentry with rfl | hentry
      · exact List.mem_append_right _ (List.mem_singleton_self output)
      · exact List.mem_append_left _ (h.outputs entry hentry)
  · intro other hother
    rcases List.mem_append.mp hother with hother | hother
    · obtain ⟨otherUrl, hname, hlookup⟩ := h.finals other hother
      refine ⟨otherUrl, hname, ?_⟩
      rw [Dict.lookup_set, Dict.lookup_set]
      by_cases hfinal : finalUrl = otherUrl
      · rw [if_pos hfinal, hname, ← hfinal, houtput]
      · have hremote : remoteUrl ≠ otherUrl := by
          rintro rfl
          rw [hfree] at hlookup
          cases hlookup
        rw [if_neg hfinal, if_neg hremote, hlookup]
    · rw [List.mem_singleton.mp hother]
      refine ⟨finalUrl, houtput.symm, ?_⟩
      rw [Dict.lookup_set, if_pos rfl]
  · exact fun entry hentry => List.mem_append_left _ (h.timed entry hentry)
  · intro hn other
    obtain ⟨hold, hnew⟩ := hnodup hn
    rw [Dict.lookup_set]
    split
    · rename_i hother
      subst hother
      have hnone : s.durations.filter (·.1 = output) = [] := by
        refine List.filter_eq_nil_iff.mpr fun entry hentry hkey => hnew ?_
        rw [← of_decide_eq_true hkey]
        exact h.timed entry hentry
      rw [plannedTotal, hnone]
      rfl
    · exact h.planned hold other
  · intro other hother
    rcases List.mem_cons.mp hother with rfl | hother
    · exact List.mem_append_right _ (List.mem_singleton_self _)
    · exact List.mem_append_left _ (hkept other hother)

theorem addDuration_spec {output : Chars} (houtput : output ∈ outputs) (stripped : Chars) :
    Triple (Current rt bounds outputs) (addDuration rt bounds output stripped) (fun _ => Current rt bounds outputs)
      (fun _ => Limited rt bounds) := by
  refine .step fun s hs => ?_
  obtain ⟨h, hkept⟩ := hs
  split
  · exact h.toLimited
  · rename_i duration _
    generalize htotal : rt.seconds.add ((s.planned.lookup output).getD rt.seconds.zero) duration = total
    dsimp only
    split
    · exact ⟨h.manifests, h.assets, h.depth, h.durations⟩
    · rename_i hwithin
      have hplanned (hn : s.delivered.Nodup) (other : Chars) :
          plannedTotal rt { s with
            planned := s.planned.set output total, durations := s.durations ++ [(output, duration)] } other =
            if output = other then total else plannedTotal rt s other := by
        rw [plannedTotal, List.filter_append, List.map_append, List.foldl_append]
        by_cases hother : output = other
        · subst hother
          rw [if_pos rfl, ← htotal, h.planned hn, List.filter_cons_of_pos (by simp)]
          rfl
        · rw [if_neg hother, List.filter_cons_of_neg (by simpa using hother)]
          rfl
      refine ⟨{ h with durations := fun hn other => ?_, timed := ?_, planned := fun hn other => ?_ }, hkept⟩
      · rw [hplanned hn]
        split
        · exact Bool.eq_false_iff.mpr hwithin
        · exact h.durations hn other
      · intro entry hentry
        rcases List.mem_append.mp hentry with hentry | hentry
        · exact h.timed entry hentry
        · rw [List.mem_singleton.mp hentry]
          exact hkept output houtput
      · rw [hplanned hn, Dict.lookup_set]
        split
        · rfl
        · exact h.planned hn other

theorem fetchAsset_spec (remoteUrl : Chars) (kind : AssetKind) (hasMap : Bool) :
    Triple (Current rt bounds outputs) (fetchAsset rt bounds remoteUrl kind hasMap)
      (fun _ => Current rt bounds outputs) (fun _ => Limited rt bounds) := by
  refine .step fun s hs => ?_
  obtain ⟨h, hkept⟩ := hs
  split
  · exact ⟨h, hkept⟩
  · rename_i hfree
    split
    · exact h.toLimited
    · rename_i hlimit
      split
      · exact h.toLimited
      · split
        · exact h.toLimited
        · rename_i suffix _
          have hdownloaded := h.downloaded
          have hassets : (s.downloads ++ [remoteUrl]).length ≤ bounds.maxAssets := by
            rw [List.length_append, List.length_singleton]
            omega
          have hasked : Limited rt bounds
              { s with requests := s.requests + 1, downloads := s.downloads ++ [remoteUrl] } :=
            ⟨h.manifests, hassets, h.depth, h.durations⟩
          rw [downloadAsset]
          dsimp only
          split
          · exact hasked
          · split
            · exact hasked
            · split
              · exact hasked
              · refine ⟨{ h with assets := hassets, downloaded := ?_ }, hkept⟩
                rw [Dict.length_set s.assets hfree, List.length_append, List.length_singleton, hdownloaded]

section Lines
variable {descend : Chars → Procedure (HlsState D) HlsError Chars} {manifest : Manifest}

/-- What keeps everything accounted for. -/
def Keeps (rt : HlsRuntime D) (bounds : HlsBounds rt.seconds) (outputs : List Chars) {A : Type}
    (x : Procedure (HlsState D) HlsError A) : Prop :=
  Triple (Current rt bounds outputs) x (fun _ => Current rt bounds outputs) (fun _ => Limited rt bounds)

theorem Keeps.pure {A : Type} (a : A) : Keeps rt bounds outputs (pure a : Procedure (HlsState D) HlsError A) :=
  Triple.pure fun _ h => h

theorem Keeps.attempt {A : Type} (x : Except HlsError A) : Keeps rt bounds outputs (attempt x) :=
  Triple.attempt (fun _ _ _ h => h) fun _ _ _ h => h.accounted.toLimited

theorem Keeps.bind {A B : Type} {x : Procedure (HlsState D) HlsError A} {f : A → Procedure (HlsState D) HlsError B}
    (hx : Keeps rt bounds outputs x) (hf : ∀ a, Keeps rt bounds outputs (f a)) : Keeps rt bounds outputs (x >>= f) :=
  Triple.bind hx hf

theorem replaceParts_keeps (hdescend : ∀ url, Keeps rt bounds outputs (descend url)) (tag : Chars) (parts : List Part) :
    Keeps rt bounds outputs (replaceParts rt bounds descend manifest tag parts) := by
  induction parts with
  | nil => exact .pure _
  | cons part parts ih =>
    refine .bind ?_ fun replaced => .bind ih fun rest => .pure _
    cases part with
    | char c => exact .pure _
    | uri quoted value =>
      refine .bind (.attempt _) fun remote => .bind ?_ fun name => .pure _
      rw [fetchPart]
      split
      · exact hdescend remote
      · exact fetchAsset_spec remote _ _

theorem rewriteLine_keeps (hdescend : ∀ url, Keeps rt bounds outputs (descend url)) (houtput : manifest.output ∈ outputs)
    (index : Nat) (line : Chars) (pendingVariant : Bool) :
    Keeps rt bounds outputs (rewriteLine rt bounds descend manifest index line pendingVariant) := by
  rw [rewriteLine]
  split
  · exact .pure _
  · split
    · refine .bind ?_ fun _ => .bind ?_ fun replaced => .pure _
      · rw [planDuration]
        split
        · exact addDuration_spec houtput _
        · exact .pure _
      · rw [replaceUris]
        split
        · exact .bind (replaceParts_keeps hdescend _ _) fun replaced => .pure _
        · exact .pure _
    · split
      · exact .pure _
      · refine .bind (.attempt _) fun remote => .bind ?_ fun name => .pure _
        rw [fetchLine]
        split
        · exact hdescend remote
        · exact fetchAsset_spec remote _ _

theorem rewriteLines_keeps (hdescend : ∀ url, Keeps rt bounds outputs (descend url)) (manifest : Manifest)
    (houtput : manifest.output ∈ outputs) (lines : List (Chars × Nat)) (pendingVariant : Bool) :
    Keeps rt bounds outputs (rewriteLines rt bounds descend manifest lines pendingVariant) := by
  induction lines generalizing pendingVariant with
  | nil => exact .pure _
  | cons entry lines ih =>
    exact .bind (rewriteLine_keeps hdescend houtput entry.2 entry.1 pendingVariant) fun result =>
      .bind (ih result.2) fun rewritten => .pure _

end Lines

variable {descend : Chars → Procedure (HlsState D) HlsError Chars}

theorem writePlaylist_keeps (output : Chars) (rewritten : List Chars) :
    Keeps rt bounds outputs (writePlaylist output rewritten) :=
  .step fun _ h => ⟨h.accounted.frame rfl rfl rfl rfl rfl rfl rfl, h.kept⟩

theorem materialize_spec (hdescend : ∀ outputs url, Keeps rt bounds outputs (descend url))
    (hdepth : depth ≤ bounds.maxDepth) (outputs : List Chars) (remoteUrl : Chars) :
    Triple (Unknown rt bounds outputs 0 remoteUrl) (materialize rt bounds descend remoteUrl depth)
      (fun _ => Current rt bounds outputs) (fun _ => Limited rt bounds) := by
  refine (requestManifest_spec hdepth).bind fun response => ?_
  have htext : Triple (Unknown rt bounds outputs 1 remoteUrl) (attempt (manifestText rt response.body))
      (fun _ => Unknown rt bounds outputs 1 remoteUrl) (fun _ => Limited rt bounds) :=
    .attempt (fun _ _ _ h => h) fun _ _ _ h => h.accounted.toLimited
  refine htext.bind fun text => (register_spec response.finalUrl).bind fun _ => ?_
  generalize localName rt response.finalUrl ".m3u8".toList = output
  have hlines : Keeps rt bounds (output :: outputs) (rewriteLines rt bounds descend
      ⟨response.finalUrl, output, splitLines text⟩ (splitLines text).zipIdx false) :=
    rewriteLines_keeps (hdescend _) ⟨response.finalUrl, output, splitLines text⟩ List.mem_cons_self _ _
  have hrest := hlines.bind fun rewritten => Keeps.bind (.attempt (checkRewritten rt rewritten)) fun _ =>
    Keeps.bind (writePlaylist_keeps output rewritten) fun _ => Keeps.pure output
  exact hrest.post fun _ _ h => ⟨h.accounted, fun other hother => h.kept other (List.mem_cons_of_mem _ hother)⟩

/-- Each level is one deeper, and the last one is the deepest that is allowed. -/
theorem fetchManifest_keeps {levels depth : Nat} (hdepth : depth + levels = bounds.maxDepth + 1) (outputs : List Chars)
    (remoteUrl : Chars) : Keeps rt bounds outputs (fetchManifest rt bounds levels depth remoteUrl) := by
  induction levels generalizing depth outputs remoteUrl with
  | zero => exact Triple.throw fun _ h => h.accounted.toLimited
  | succ levels ih =>
    have hknown : Triple (Current rt bounds outputs)
        (step fun s : HlsState D => (s, (.ok (s.playlists.lookup remoteUrl) : Except HlsError (Option Chars))))
        (fun known s => Current rt bounds outputs s ∧ s.playlists.lookup remoteUrl = known) (fun _ => Limited rt bounds) :=
      .step fun s h => ⟨h, rfl⟩
    refine hknown.bind fun known => ?_
    cases known with
    | some output => exact Triple.pure fun _ h => h.1
    | none =>
      have hdescend (outputs : List Chars) (url : Chars) :
          Keeps rt bounds outputs (fetchManifest rt bounds levels (depth + 1) url) := ih (by omega) outputs url
      have hspec := materialize_spec hdescend (by omega : depth ≤ bounds.maxDepth) outputs remoteUrl
      exact hspec.pre fun s h => ⟨h.1.accounted, h.1.kept, h.2⟩

theorem start_accounted (files : Dict Chars HlsFile) : Accounted rt bounds 0 { files := files } where
  manifests _ := Nat.zero_le _
  assets := Nat.zero_le _
  depth _ h := by cases h
  durations _ _ := rt.seconds.zero_within _ bounds.positive
  requested := rfl
  downloaded := rfl
  outputs _ h := by cases h
  finals _ h := by cases h
  timed _ h := by cases h
  planned _ _ := rfl

end Limits

section Calls
variable {D : Type} (rt : HlsRuntime D)

/-- A call whose arguments are accepted keeps within its limits, and one whose arguments are not requests nothing. -/
structure HlsWithinLimits (limits : HlsLimits D) (headers : List (Chars × Chars)) (outcome : HlsOutcome D) : Prop where
  accepted : ∀ bounds, checkArguments rt limits headers = .ok bounds → WithinLimits rt bounds outcome.run
  refused : ∀ e, checkArguments rt limits headers = .error e →
    outcome.run.opened = [] ∧ outcome.run.downloads = []

/-- A call keeps within its limits when no two of its manifests are delivered from one final address. -/
theorem hls_fetch_limits (sourceUrl : Chars) (limits : HlsLimits D) (headers : List (Chars × Chars))
    (cache : Option (Dict Chars HlsFile))
    (hdelivered : (downloadHlsPlaylist rt sourceUrl limits headers cache).run.delivered.Nodup) :
    HlsWithinLimits rt limits headers (downloadHlsPlaylist rt sourceUrl limits headers cache) := by
  rw [downloadHlsPlaylist] at hdelivered ⊢
  constructor
  · intro bounds hbounds
    rw [hbounds] at hdelivered ⊢
    have hspec : Keeps rt bounds [] (fetchManifest rt bounds (bounds.maxDepth + 1) 0 sourceUrl) :=
      fetchManifest_keeps (Nat.zero_add (bounds.maxDepth + 1)) [] sourceUrl
    have hrun := hspec { files := cache.getD Table.empty } ⟨start_accounted _, fun _ h => by cases h⟩
    revert hrun hdelivered
    dsimp only
    cases (fetchManifest rt bounds (bounds.maxDepth + 1) 0 sourceUrl).exec { files := cache.getD Table.empty } with
    | mk s result =>
      cases result with
      | ok output => exact fun hn h => h.accounted.toLimited.within hn
      | error e => exact fun hn h => h.within hn
  · intro e he
    rw [he]
    exact ⟨rfl, rfl⟩

end Calls

section Inputs

/-- Renditions at three addresses, that all lead to one manifest. -/
def aliasNetwork (url : Chars) : Chars × String :=
  if url = "s".toList then
    ("s".toList, "#EXTM3U\n#EXT-X-MEDIA:URI=\"a\"\n#EXT-X-MEDIA:URI=\"b\"\n#EXT-X-MEDIA:URI=\"c\"\n")
  else ("f".toList, "#EXTM3U\n")

def threePlaylists : HlsLimits Nat := { maxPlaylists := 3, maxPlannedDuration := 60 }

/-- The manifest at one final address is fetched three times, so that four requests are made where three are allowed. -/
theorem alias_requests_exceed : ¬ HlsWithinLimits (asciiRuntime aliasNetwork) threePlaylists []
    (downloadHlsPlaylist (asciiRuntime aliasNetwork) "s".toList threePlaylists [] none) := by
  intro hwithin
  have hmanifests := (hwithin.accepted ⟨8, 3, 5000, 2 * 1024 * 1024 * 1024, 60, rfl⟩ rfl).manifests
  revert hmanifests
  decide +kernel

/-- A master playlist with one variant. -/
def variantNetwork (url : Chars) : Chars × String :=
  if url = "s".toList then ("s".toList, "#EXTM3U\n#EXT-X-STREAM-INF:BANDWIDTH=1\nv\n")
  else if url = "v".toList then ("f".toList, "#EXTM3U\n#EXTINF:4,\nx.ts\n")
  else (url, "media")

theorem variant_within_limits : HlsWithinLimits (asciiRuntime variantNetwork) threePlaylists []
    (downloadHlsPlaylist (asciiRuntime variantNetwork) "s".toList threePlaylists [] none) :=
  hls_fetch_limits _ _ _ _ _ (by decide +kernel)

end Inputs
end StockContent.Hls
