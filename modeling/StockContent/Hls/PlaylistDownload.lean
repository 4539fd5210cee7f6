import StockContent.Hls.UriSubstitution
import StockContent.Storage.Triple

/-! An HLS playlist is fetched with all that it refers to, and written with local names in the place of addresses. -/
namespace StockContent.Hls
open Storage Procedure Text

inductive HlsError where
  | resourceLimit (code : String)
  | runtimeError (message : String)
  | sourceDownloadHttp (status : Nat)
  | unsafeSourceUrl (code : String)
  | valueError (message : String)
  deriving DecidableEq

/-- Durations, with the tests that the code makes on them. -/
structure Seconds (D : Type) where
  zero : D
  add : D → D → D
  isFinite : D → Bool
  negative : D → Bool
  nonpositive : D → Bool
  exceeds : D → D → Bool
  zero_within : ∀ limit, nonpositive limit = false → exceeds zero limit = false

structure HlsResponse where
  finalUrl : Chars
  status : Nat
  body : List UInt8

/-- What the download takes from outside: the network, which may answer each request in another way, and the reading of
addresses, bytes and numbers. A digest is a name of hexadecimal digits. -/
structure HlsRuntime (D : Type) where
  tables : PlaylistTables
  seconds : Seconds D
  openResponse : Nat → Chars → Except HlsError HlsResponse
  validateSourceUrl : Chars → Except HlsError Unit
  validator : Chars → Except HlsError Unit
  urljoin : Chars → Chars → Except HlsError Chars
  pathSuffix : Chars → Except HlsError Chars
  digest : Chars → Chars
  digest_name : ∀ url, FileName (digest url)
  decode : List UInt8 → Option Chars
  parseFloat : Chars → Option D
  lower : Chars → Chars

structure HlsLimits (D : Type) where
  maxDepth : Int := 8
  maxPlaylists : Int := 32
  maxAssets : Int := 5000
  maxTotalBytes : Int := 2 * 1024 * 1024 * 1024
  maxPlannedDuration : D

/-- Limits that were accepted. -/
structure HlsBounds {D : Type} (seconds : Seconds D) where
  maxDepth : Nat
  maxPlaylists : Nat
  maxAssets : Nat
  maxTotalBytes : Nat
  maxPlannedDuration : D
  positive : seconds.nonpositive maxPlannedDuration = false

inductive AssetKind where
  | key
  | map
  | media
  deriving DecidableEq

inductive HlsFile where
  | playlist (text : Chars)
  | asset (body : List UInt8)
  deriving DecidableEq

/-- The tables and counters of a call, the files of the cache directory by their names, and the course of the call:
its requests, the outputs of the manifests that were delivered, what was read, written and planned. -/
structure HlsState (D : Type) where
  playlists : Dict Chars Chars := Table.empty
  assets : Dict (Chars × AssetKind × Bool) Chars := Table.empty
  downloadedBytes : Nat := 0
  planned : Dict Chars D := Table.empty
  files : Dict Chars HlsFile
  requests : Nat := 0
  opened : List (Chars × Nat) := []
  delivered : List Chars := []
  downloads : List Chars := []
  reads : List Nat := []
  durations : List (Chars × D) := []
  written : List Chars := []

def hlsMaxManifestBytes : Nat := 8 * 1024 * 1024

section Download
variable {D : Type} (rt : HlsRuntime D) (bounds : HlsBounds rt.seconds)

def localName (remote suffix : Chars) : Chars := rt.digest remote ++ suffix

def hlsMediaSuffixes : List Chars :=
  [".aac".toList, ".ac3".toList, ".ec3".toList, ".m4a".toList, ".m4s".toList, ".mp3".toList, ".mp4".toList,
    ".ts".toList, ".webm".toList]

/-- Only a suffix that is on the list is kept. -/
def hlsLocalAssetSuffix (remoteUrl : Chars) (kind : AssetKind) (hasMap : Bool) : Except HlsError Chars :=
  if kind = .key then .ok ".key".toList
  else (rt.pathSuffix remoteUrl).map fun suffix =>
    if hlsMediaSuffixes.contains suffix then suffix
    else if kind = .map then (if suffix = ".m4s".toList then ".m4s".toList else ".mp4".toList)
    else if hasMap then ".m4s".toList else ".ts".toList

/-- The bytes of a manifest, within what is left. -/
def readManifest (s : HlsState D) (response : HlsResponse) : HlsState D × Except HlsError HlsResponse :=
  let remaining := bounds.maxTotalBytes - s.downloadedBytes
  let body := response.body.take (min hlsMaxManifestBytes remaining + 1)
  if response.status < 200 || 300 ≤ response.status then
    (s, .error (.runtimeError ("HLS manifest returned HTTP " ++ toString response.status)))
  else if remaining = 0 then (s, .error (.resourceLimit "HLS_TOTAL_BYTES_LIMIT_EXCEEDED"))
  else
    let read := { s with reads := s.reads ++ [body.length] }
    if hlsMaxManifestBytes < body.length then (read, .error (.resourceLimit "HLS_MANIFEST_BYTES_LIMIT_EXCEEDED"))
    else if remaining < body.length then (read, .error (.resourceLimit "HLS_TOTAL_BYTES_LIMIT_EXCEEDED"))
    else ({ read with downloadedBytes := s.downloadedBytes + body.length }, .ok { response with body := body })

/-- The number of different outputs is tested, not the number of requests. -/
def requestManifest (remoteUrl : Chars) (depth : Nat) : Procedure (HlsState D) HlsError HlsResponse := step fun s =>
  if bounds.maxPlaylists ≤ (s.playlists.rows.map Prod.snd).dedup.length then
    (s, .error (.resourceLimit "HLS_PLAYLIST_LIMIT_EXCEEDED"))
  else
    let asked := { s with requests := s.requests + 1, opened := s.opened ++ [(remoteUrl, depth)] }
    match rt.openResponse s.requests remoteUrl with
    | .error e => (asked, .error e)
    | .ok response => readManifest rt bounds asked response

def manifestText (body : List UInt8) : Except HlsError Chars :=
  match rt.decode body with
  | none => .error (.runtimeError "HLS manifest is not UTF-8")
  | some text =>
    if startsWith (lstripChars rt.tables.toCharTables text) "#EXTM3U".toList then
      (rt.validator text).map fun _ => text
    else .error (.runtimeError "source is not a supported HLS playlist")

/-- The duration of an output starts at zero whenever it is fetched. -/
def register (remoteUrl finalUrl output : Chars) : Procedure (HlsState D) HlsError Unit := step fun s =>
  ({ s with
      playlists := (s.playlists.set remoteUrl output).set finalUrl output
      planned := s.planned.set output rt.seconds.zero
      delivered := s.delivered ++ [output] }, .ok ())

/-- `float(stripped.split(":", 1)[1].split(",", 1)[0])`, if it is a finite duration. -/
def durationOf (stripped : Chars) : Option D :=
  match stripped.dropWhile (· ≠ ':') with
  | [] => none
  | _ :: rest => (rt.parseFloat (rest.takeWhile (· ≠ ','))).filter fun duration =>
      rt.seconds.isFinite duration && !rt.seconds.negative duration

def addDuration (output stripped : Chars) : Procedure (HlsState D) HlsError Unit := step fun s =>
  match durationOf rt stripped with
  | none => (s, .error (.resourceLimit "HLS_DURATION_INVALID"))
  | some duration =>
    let total := rt.seconds.add ((s.planned.lookup output).getD rt.seconds.zero) duration
    let added := { s with planned := s.planned.set output total }
    if rt.seconds.exceeds total bounds.maxPlannedDuration then
      (added, .error (.resourceLimit "HLS_DURATION_LIMIT_EXCEEDED"))
    else ({ added with durations := s.durations ++ [(output, duration)] }, .ok ())

/-- `safe_download_url` into the cache directory, with what is left as its limit. -/
def downloadAsset (s : HlsState D) (key : Chars × AssetKind × Bool) (output : Chars) :
    HlsState D × Except HlsError Chars :=
  let asked := { s with requests := s.requests + 1, downloads := s.downloads ++ [key.1] }
  match rt.openResponse s.requests key.1 with
  | .error e => (asked, .error e)
  | .ok response =>
    if response.status < 200 || 300 ≤ response.status then (asked, .error (.sourceDownloadHttp response.status))
    else if bounds.maxTotalBytes - s.downloadedBytes < response.body.length then
      (asked, .error (.resourceLimit "HLS_TOTAL_BYTES_LIMIT_EXCEEDED"))
    else
      ({ asked with
          reads := s.reads ++ [response.body.length]
          files := s.files.set output (.asset response.body)
          written := s.written ++ [output]
          downloadedBytes := s.downloadedBytes + response.body.length
          assets := s.assets.set key output }, .ok output)

def fetchAsset (remoteUrl : Chars) (kind : AssetKind) (hasMap : Bool) : Procedure (HlsState D) HlsError Chars :=
  step fun s =>
    match s.assets.lookup (remoteUrl, kind, hasMap) with
    | some output => (s, .ok output)
    | none =>
      if bounds.maxAssets ≤ s.assets.rows.length then (s, .error (.resourceLimit "HLS_ASSET_LIMIT_EXCEEDED"))
      else if bounds.maxTotalBytes - s.downloadedBytes = 0 then
        (s, .error (.resourceLimit "HLS_TOTAL_BYTES_LIMIT_EXCEEDED"))
      else
        match hlsLocalAssetSuffix rt remoteUrl kind hasMap with
        | .error e => (s, .error e)
        | .ok suffix => downloadAsset rt bounds s (remoteUrl, kind, hasMap) (localName rt remoteUrl suffix)

/-- A manifest whose lines are rewritten. -/
structure Manifest where
  finalUrl : Chars
  output : Chars
  lines : List Chars

def Manifest.hasMap (manifest : Manifest) : Bool :=
  manifest.lines.any fun line => startsWith (stripChars rt.tables.toCharTables line) "#EXT-X-MAP".toList

def Manifest.retained (manifest : Manifest) : Option (List Nat) :=
  selectedMasterLines rt.tables.toCharTables manifest.lines

def tagNameOf (line : Chars) : Chars :=
  if isTag rt.tables.toCharTables line then tagName rt.tables.toCharTables line else []

def assetKindOf (tag : Chars) : AssetKind :=
  if tag = "#EXT-X-KEY".toList then .key else if tag = "#EXT-X-MAP".toList then .map else .media

section Lines
variable (descend : Chars → Procedure (HlsState D) HlsError Chars) (manifest : Manifest)

def fetchPart (tag remote : Chars) : Procedure (HlsState D) HlsError Chars :=
  if playlistTags.contains tag then descend remote
  else fetchAsset rt bounds remote (assetKindOf tag) (manifest.hasMap rt)

/-- Both files are in the cache directory, so that the relative path is the name. -/
def replacePart (tag : Chars) : Part → Procedure (HlsState D) HlsError Part
  | .char c => pure (.char c)
  | .uri quoted value => do
    let remote ← attempt (rt.urljoin manifest.finalUrl value)
    let name ← fetchPart rt bounds descend manifest tag remote
    return .uri quoted name

def replaceParts (tag : Chars) : List Part → Procedure (HlsState D) HlsError (List Part)
  | [] => pure []
  | part :: parts => do
    let replaced ← replacePart rt bounds descend manifest tag part
    let rest ← replaceParts tag parts
    return replaced :: rest

/-- A line of a master playlist that is left out, and whether a variant is still awaited after it. -/
def leftOut (index : Nat) (line : Chars) (pendingVariant : Bool) : Option Bool :=
  match manifest.retained rt with
  | none => none
  | some retained =>
    if index ∈ retained then none
    else if playlistTags.contains (tagNameOf rt line) || pendingVariant then some false
    else if !isTag rt.tables.toCharTables line && 0 < index &&
        (manifest.lines[index - 1]?.any fun before =>
          startsWith (stripChars rt.tables.toCharTables before) streamInf) then some pendingVariant
    else none

def planDuration (line : Chars) : Procedure (HlsState D) HlsError Unit :=
  if tagNameOf rt line = "#EXTINF".toList then
    addDuration rt bounds manifest.output (stripChars rt.tables.toCharTables line)
  else pure ()

def replaceUris (line : Chars) : Procedure (HlsState D) HlsError Chars :=
  if uriMark <:+: line then
    render <$> replaceParts rt bounds descend manifest (tagNameOf rt line) (parts rt.tables.toCharTables line)
  else pure line

def rewriteTag (line : Chars) : Procedure (HlsState D) HlsError (Option Chars × Bool) := do
  planDuration rt bounds manifest line
  let replaced ← replaceUris rt bounds descend manifest line
  return (some replaced, tagNameOf rt line = streamInf)

def fetchLine (remote : Chars) (pendingVariant : Bool) : Procedure (HlsState D) HlsError Chars :=
  if pendingVariant then descend remote else fetchAsset rt bounds remote .media (manifest.hasMap rt)

def rewriteUri (line : Chars) (pendingVariant : Bool) : Procedure (HlsState D) HlsError (Option Chars × Bool) := do
  let remote ← attempt (rt.urljoin manifest.finalUrl (stripChars rt.tables.toCharTables line))
  let name ← fetchLine rt bounds descend manifest remote pendingVariant
  return (some name, false)

def rewriteLine (index : Nat) (line : Chars) (pendingVariant : Bool) :
    Procedure (HlsState D) HlsError (Option Chars × Bool) :=
  match leftOut rt manifest index line pendingVariant with
  | some pendingVariant => pure (none, pendingVariant)
  | none =>
    if isTag rt.tables.toCharTables line then rewriteTag rt bounds descend manifest line
    else if stripChars rt.tables.toCharTables line = [] then pure (some line, pendingVariant)
    else rewriteUri rt bounds descend manifest line pendingVariant

def rewriteLines : List (Chars × Nat) → Bool → Procedure (HlsState D) HlsError (List Chars)
  | [], _ => pure []
  | (line, index) :: rest, pendingVariant => do
    let result ← rewriteLine rt bounds descend manifest index line pendingVariant
    let rewritten ← rewriteLines rest result.2
    return result.1.toList ++ rewritten

end Lines

def protocols : List Chars := ["http:".toList, "https:".toList, "rtmp:".toList, "data:".toList]

def hasRemoteUri (line : Chars) : Bool :=
  let lowered := rt.lower line
  let value := ((parts rt.tables.toCharTables line).findSome? Part.value?).getD
    (lstripChars rt.tables.toCharTables line)
  protocols.any (fun protocol => protocol <:+: lowered) ||
    protocols.any fun protocol => startsWith (rt.lower value) protocol

def checkRewritten (rewritten : List Chars) : Except HlsError Unit :=
  if rewritten.any (hasRemoteUri rt) then .error (.runtimeError "HLS playlist contains an unreplaced remote URI")
  else .ok ()

def writePlaylist (output : Chars) (rewritten : List Chars) : Procedure (HlsState D) HlsError Unit := step fun s =>
  ({ s with
      files := s.files.set output (.playlist (joinLines rewritten))
      written := s.written ++ [output] }, .ok ())

/-- A manifest that is not known, with `descend` for the manifests it refers to. -/
def materialize (descend : Chars → Procedure (HlsState D) HlsError Chars) (remoteUrl : Chars) (depth : Nat) :
    Procedure (HlsState D) HlsError Chars := do
  let response ← requestManifest rt bounds remoteUrl depth
  let text ← attempt (manifestText rt response.body)
  let manifest : Manifest := ⟨response.finalUrl, localName rt response.finalUrl ".m3u8".toList, splitLines text⟩
  register rt remoteUrl response.finalUrl manifest.output
  let rewritten ← rewriteLines rt bounds descend manifest manifest.lines.zipIdx false
  attempt (checkRewritten rt rewritten)
  writePlaylist manifest.output rewritten
  return manifest.output

/-- `levels` are the levels that are left, one more than `max_depth - depth`: none is left where the depth exceeds. -/
def fetchManifest : (levels depth : Nat) → Chars → Procedure (HlsState D) HlsError Chars
  | 0, _, _ => throw (.resourceLimit "HLS_NESTING_LIMIT_EXCEEDED")
  | levels + 1, depth, remoteUrl => do
    let known ← step fun s => (s, .ok (s.playlists.lookup remoteUrl))
    match known with
    | some output => pure output
    | none => materialize rt bounds (fetchManifest levels (depth + 1)) remoteUrl depth

/-- The levels that are left say what the test of the depth says. -/
theorem fetchManifest_depth (depth : Nat) (remoteUrl : Chars) :
    fetchManifest rt bounds (bounds.maxDepth + 1 - depth) depth remoteUrl =
      if bounds.maxDepth < depth then throw (.resourceLimit "HLS_NESTING_LIMIT_EXCEEDED")
      else (do
        let next := fetchManifest rt bounds (bounds.maxDepth + 1 - (depth + 1)) (depth + 1)
        let known ← step fun s => (s, .ok (s.playlists.lookup remoteUrl))
        match known with
        | some output => pure output
        | none => materialize rt bounds next remoteUrl depth) := by
  split
  · rename_i h
    rw [Nat.sub_eq_zero_of_le h]
    rfl
  · rename_i h
    have hlevels : bounds.maxDepth + 1 - depth = bounds.maxDepth + 1 - (depth + 1) + 1 := by omega
    rw [hlevels]
    rfl

end Download

section Call
variable {D : Type} (rt : HlsRuntime D)

def checkLimits (limits : HlsLimits D) : Except HlsError (HlsBounds rt.seconds) :=
  if h : rt.seconds.nonpositive limits.maxPlannedDuration = false then
    if limits.maxDepth < 0 || limits.maxPlaylists < 1 || limits.maxAssets < 1 || limits.maxTotalBytes < 1 then
      .error (.valueError "HLS resource limits must be positive")
    else .ok ⟨limits.maxDepth.toNat, limits.maxPlaylists.toNat, limits.maxAssets.toNat, limits.maxTotalBytes.toNat,
      limits.maxPlannedDuration, h⟩
  else .error (.valueError "HLS resource limits must be positive")

def unsafeHeaders : List Chars :=
  ["host".toList, "proxy".toList, "proxy-authorization".toList, "cookie".toList, "authorization".toList]

def checkHeader (header : Chars × Chars) : Except HlsError Unit :=
  if unsafeHeaders.contains (rt.lower header.1) then .error (.unsafeSourceUrl "SOURCE_HEADER_UNSAFE")
  else if rt.lower header.1 = "referer".toList ∨ rt.lower header.1 = "origin".toList then rt.validateSourceUrl header.2
  else .ok ()

def checkArguments (limits : HlsLimits D) (headers : List (Chars × Chars)) : Except HlsError (HlsBounds rt.seconds) := do
  let bounds ← checkLimits rt limits
  headers.forM (checkHeader rt)
  return bounds

/-- What a call did, the files of its cache directory if there is one, and how it ended. -/
structure HlsOutcome (D : Type) where
  run : HlsState D
  cache : Option (Dict Chars HlsFile)
  result : Except HlsError Chars

/-- Whatever is raised once the arguments are accepted, the cache directory is removed. -/
def downloadHlsPlaylist (sourceUrl : Chars) (limits : HlsLimits D) (headers : List (Chars × Chars))
    (cache : Option (Dict Chars HlsFile)) : HlsOutcome D :=
  let start : HlsState D := { files := cache.getD Table.empty }
  match checkArguments rt limits headers with
  | .error e => ⟨start, cache, .error e⟩
  | .ok bounds =>
    match (fetchManifest rt bounds (bounds.maxDepth + 1) 0 sourceUrl).exec start with
    | (s, .ok output) => ⟨s, some s.files, .ok output⟩
    | (s, .error e) => ⟨s, none, .error e⟩

end Call

section Ascii

def asciiTables : PlaylistTables where
  isDecimal := Char.isDigit
  isSpace := fun c => c ∈ [' ', '\t', '\r', '\n']
  upper := fun c => [c.toUpper]
  letters := by
    intro c hc
    refine decide_eq_false fun hspace => ?_
    have hblank : [' ', '\t', '\r', '\n'].all (fun d => !d.isAlpha) = true := by decide
    have halpha : (!c.isAlpha) = true := List.all_eq_true.mp hblank c hspace
    rw [hc] at halpha
    cases halpha
  visible := by
    intro c hfirst _
    refine decide_eq_false fun hspace => ?_
    have hblank : [' ', '\t', '\r', '\n'].all (fun d => !decide ('!' ≤ d)) = true := by decide
    have hlow : (!decide ('!' ≤ c)) = true := List.all_eq_true.mp hblank c hspace
    rw [decide_eq_true hfirst] at hlow
    cases hlow

def wholeSeconds : Seconds Nat where
  zero := 0
  add := (· + ·)
  isFinite := fun _ => true
  negative := fun _ => false
  nonpositive := (· = 0)
  exceeds := fun total limit => limit < total
  zero_within := fun limit _ => decide_eq_false (Nat.not_lt_zero limit)

/-- The lower-case letters and digits of an address, after a digit. -/
def plainDigest (url : Chars) : Chars := '0' :: url.filter fileChar

theorem plainDigest_name (url : Chars) : FileName (plainDigest url) :=
  ⟨List.cons_ne_nil _ _, List.forall_mem_cons.mpr ⟨rfl, fun _ hc => (List.mem_filter.mp hc).2⟩⟩

def asciiBytes (text : String) : List UInt8 := text.toList.map fun c => UInt8.ofNat c.toNat

/-- Plain texts over the network that answers each address with a final address and a body. -/
def asciiRuntime (network : Chars → Chars × String) : HlsRuntime Nat where
  tables := asciiTables
  seconds := wholeSeconds
  openResponse := fun _ url => .ok ⟨(network url).1, 200, asciiBytes (network url).2⟩
  validateSourceUrl := fun _ => .ok ()
  validator := fun _ => .ok ()
  urljoin := fun _ value => .ok value
  pathSuffix := fun url => .ok (url.dropWhile (· ≠ '.'))
  digest := plainDigest
  digest_name := plainDigest_name
  decode := fun body => some (body.map fun byte => Char.ofNat byte.toNat)
  parseFloat := fun text =>
    if text.all Char.isDigit then some (text.foldl (fun n c => 10 * n + (c.toNat - 48)) 0) else none
  lower := List.map Char.toLower

end Ascii
end StockContent.Hls
