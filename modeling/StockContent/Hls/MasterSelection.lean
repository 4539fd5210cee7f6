import StockContent.Hls.UriSubstitution
import StockContent.Hls.PlaylistDownload
import StockContent.Storage.StableSort

/-! What is left of a master playlist: of the variants that it declares, and of its audio renditions. -/
namespace StockContent.Hls
open Storage Procedure Text

/-- A line and its place in the playlist. -/
abbrev Entry := Chars × Nat

section Declared
variable (tables : CharTables)

/-- A line that is an address. -/
def isAddress (line : Chars) : Bool := !isTag tables line && !decide (stripChars tables line = [])

def isStreamTag (line : Chars) : Bool := tagName tables line = streamInf

/-- A variant, as the format declares it: a stream tag, and the first address after it. -/
structure MasterVariant where
  stream : Entry
  address : Entry
  deriving DecidableEq

/-- Blank lines, comments and other tags do not come between a stream tag and its address. -/
def declaredFrom : List Entry → Option Entry → List MasterVariant
  | [], _ => []
  | entry :: rest, stream =>
    if isAddress tables entry.1 then (stream.map fun tag => ⟨tag, entry⟩).toList ++ declaredFrom rest none
    else declaredFrom rest (if isStreamTag tables entry.1 then some entry else stream)

def declaredVariants (lines : List Chars) : List MasterVariant := declaredFrom tables lines.zipIdx none

def isAudioRendition (line : Chars) : Bool :=
  tagName tables line = mediaTag &&
    upperChars tables (((hlsAttributes line).lookup "TYPE".toList).getD []) = "AUDIO".toList

/-- At most one audio rendition, of the group that the stream tag names. -/
structure SingleAudio (entries : List Entry) (stream : Chars) : Prop where
  single : ∀ a ∈ entries, ∀ b ∈ entries, isAudioRendition tables a.1 → isAudioRendition tables b.1 → a = b
  group : ∀ a ∈ entries, isAudioRendition tables a.1 →
    ∃ group, (hlsAttributes stream).lookup "AUDIO".toList = some group ∧
      (hlsAttributes a.1).lookup "GROUP-ID".toList = some group

/-- A line that starts like a stream tag stands directly before. -/
def afterStreamTag (lines : List Chars) (index : Nat) : Bool :=
  lines[index - 1]?.any fun before => startsWith (stripChars tables before) streamInf

/-- The layouts that the selection reads as they are declared: each address directly after its stream tag, or one variant
only whose address is apart from its tag, with no audio but its own. -/
def SelectableLayout (lines : List Chars) (first : MasterVariant) (others : List MasterVariant) : Prop :=
  if first.address.2 = first.stream.2 + 1 then ∀ v ∈ others, afterStreamTag tables lines v.address.2 = true
  else others = [] ∧ SingleAudio tables lines.zipIdx first.stream.1

end Declared

section Entries

variable {tables : CharTables} {line : Chars} {lines : List Entry} {stream : Option Entry} {v : MasterVariant}

/-- A line whose tag name starts with the mark of a tag is one. -/
theorem isTag_of_tagName {name : Chars} (h : tagName tables line = '#' :: name) : isTag tables line = true := by
  rw [tagName] at h
  rw [isTag]
  cases hstrip : stripChars tables line with
  | nil => rw [hstrip] at h; cases h
  | cons c rest =>
    rw [hstrip, List.takeWhile_cons] at h
    split at h
    · exact decide_eq_true (congrArg some (List.cons.inj h).1)
    · cases h

theorem isTag_of_isStreamTag (h : isStreamTag tables line = true) : isTag tables line = true :=
  isTag_of_tagName (of_decide_eq_true h)

theorem isAddress_false (h : isTag tables line = true) : isAddress tables line = false := by
  rw [isAddress, h]
  rfl

theorem isAddress_eq_true : isAddress tables line = true ↔
    isTag tables line = false ∧ stripChars tables line ≠ [] := by
  rw [isAddress, Bool.and_eq_true, Bool.not_eq_true', Bool.not_eq_true', decide_eq_false_iff_not]

/-- Every declared variant has an address after its tag. -/
theorem declaredFrom_mem (h : v ∈ declaredFrom tables lines stream) :
    v.address ∈ lines ∧ isAddress tables v.address.1 = true ∧
      (stream = some v.stream ∨ v.stream ∈ lines ∧ isStreamTag tables v.stream.1 = true) := by
  induction lines generalizing stream with
  | nil => cases h
  | cons entry rest ih =>
    rw [declaredFrom] at h
    split at h
    · rename_i haddress
      rcases List.mem_append.mp h with hhere | hlater
      · obtain ⟨tag, htag, rfl⟩ := Option.map_eq_some_iff.mp (Option.mem_toList.mp hhere)
        exact ⟨List.mem_cons_self, haddress, .inl htag⟩
      · obtain ⟨hmem, haddress, hstream⟩ := ih hlater
        rcases hstream with hnone | ⟨hstream, htag⟩
        · cases hnone
        · exact ⟨List.mem_cons_of_mem _ hmem, haddress, .inr ⟨List.mem_cons_of_mem _ hstream, htag⟩⟩
    · obtain ⟨hmem, haddress, hstream⟩ := ih h
      refine ⟨List.mem_cons_of_mem _ hmem, haddress, ?_⟩
      rcases hstream with hopen | ⟨hstream, htag⟩
      · split at hopen
        · rename_i htag
          cases hopen
          exact .inr ⟨List.mem_cons_self, htag⟩
        · exact .inl hopen
      · exact .inr ⟨List.mem_cons_of_mem _ hstream, htag⟩

/-- A tag stands before its address. -/
theorem declaredFrom_forward (hlines : lines.Pairwise fun a b => a.2 < b.2)
    (hstream : ∀ tag, stream = some tag → ∀ entry ∈ lines, tag.2 < entry.2)
    (h : v ∈ declaredFrom tables lines stream) : v.stream.2 < v.address.2 := by
  induction lines generalizing stream with
  | nil => cases h
  | cons entry rest ih =>
    obtain ⟨hfirst, hrest⟩ := List.pairwise_cons.mp hlines
    rw [declaredFrom] at h
    split at h
    · rcases List.mem_append.mp h with hhere | hlater
      · obtain ⟨tag, htag, rfl⟩ := Option.map_eq_some_iff.mp (Option.mem_toList.mp hhere)
        exact hstream tag htag entry List.mem_cons_self
      · exact ih hrest (fun _ hnone => by cases hnone) hlater
    · refine ih hrest (fun tag htag later hlater => ?_) h
      split at htag
      · cases htag
        exact hfirst later hlater
      · exact hstream tag htag later (List.mem_cons_of_mem _ hlater)

/-- The variants are declared one after the other. -/
theorem declaredFrom_ordered (hlines : lines.Pairwise fun a b => a.2 < b.2) :
    (declaredFrom tables lines stream).Pairwise fun v w => v.address.2 < w.stream.2 := by
  induction lines generalizing stream with
  | nil => exact .nil
  | cons entry rest ih =>
    obtain ⟨hfirst, hrest⟩ := List.pairwise_cons.mp hlines
    rw [declaredFrom]
    split
    · refine List.pairwise_append.mpr ⟨?_, ih hrest, fun v hv w hw => ?_⟩
      · cases stream with
        | none => exact .nil
        | some tag => exact List.pairwise_singleton _ _
      · obtain ⟨tag, htag, rfl⟩ := Option.map_eq_some_iff.mp (Option.mem_toList.mp hv)
        rcases (declaredFrom_mem hw).2.2 with hnone | ⟨hstream, _⟩
        · cases hnone
        · exact hfirst w.stream hstream
    · exact ih hrest

/-- An address directly after a stream tag is that tag's, whatever stands around them. -/
theorem mem_declaredFrom_adjacent {before after : List Entry} {tag address : Entry}
    (htag : isStreamTag tables tag.1 = true) (haddress : isAddress tables address.1 = true) :
    ⟨tag, address⟩ ∈ declaredFrom tables (before ++ tag :: address :: after) stream := by
  induction before generalizing stream with
  | nil =>
    rw [List.nil_append, declaredFrom, isAddress_false (isTag_of_isStreamTag htag), if_neg Bool.false_ne_true, htag,
      if_pos rfl, declaredFrom, haddress, if_pos rfl]
    exact List.mem_append_left _ (List.mem_singleton.mpr rfl)
  | cons entry before ih =>
    rw [List.cons_append, declaredFrom]
    split
    · exact List.mem_append_right _ ih
    · exact ih

end Entries

section Selection
variable {tables : CharTables} {line : Chars} {lines : List Chars} {index : Nat}

theorem isAddress_eq (line : Chars) : isAddress tables line =
    (decide (stripChars tables line ≠ []) && decide ((lstripChars tables line).head? ≠ some '#')) := by
  rw [isAddress, isTag, strip_head, Bool.and_comm, decide_not, decide_not]

/-- What the selection takes for a variant: a stream tag with an address in the line after it. -/
theorem mem_variants : (index, line) ∈ variants tables lines ↔
    lines[index]? = some line ∧ isStreamTag tables line = true ∧
      ∃ next, lines[index + 1]? = some next ∧ isAddress tables next = true := by
  rw [variants, List.mem_filter, Bool.and_eq_true, Option.any_eq_true _ _]
  have hentry : (index, line) ∈ lines.zipIdx.map (fun entry => (entry.2, entry.1)) ↔ lines[index]? = some line := by
    rw [List.mem_map]
    constructor
    · rintro ⟨entry, hmem, heq⟩
      cases heq
      exact List.mem_zipIdx_iff_getElem?.mp hmem
    · exact fun h => ⟨(line, index), List.mem_zipIdx_iff_getElem?.mpr h, rfl⟩
  rw [hentry]
  simp only [isStreamTag, isAddress_eq]

theorem variants_ordered (lines : List Chars) : (variants tables lines).Pairwise fun a b => a.1 < b.1 := by
  have hplaces : (lines.zipIdx.map fun entry => (entry.2, entry.1)).Pairwise fun a b => a.1 < b.1 :=
    List.pairwise_map.mpr (pairwise_zipIdx lines 0)
  exact hplaces.filter _

/-- A variant of the selection is a declared one, with the next line for its address. -/
theorem declared_of_mem_variants (h : (index, line) ∈ variants tables lines) :
    ∃ next, ⟨(line, index), (next, index + 1)⟩ ∈ declaredVariants tables lines := by
  obtain ⟨hline, htag, next, hnext, haddress⟩ := mem_variants.mp h
  have hsplit : lines.zipIdx = lines.zipIdx.take index ++ (line, index) :: (next, index + 1) ::
      lines.zipIdx.drop (index + 2) := by
    conv_lhs => rw [← List.take_append_drop index lines.zipIdx]
    rw [List.drop_eq_getElem?_toList_append, List.drop_eq_getElem?_toList_append, List.getElem?_zipIdx,
      List.getElem?_zipIdx, hline, hnext]
    simp
  rw [declaredVariants, hsplit]
  exact ⟨next, mem_declaredFrom_adjacent htag haddress⟩

/-- The rendition that is selected is an audio rendition of the group. -/
theorem selectedAudio_spec {group : Chars} (h : selectedAudio tables lines group = some index) :
    ∃ rendition, lines[index]? = some rendition ∧ isAudioRendition tables rendition = true ∧
      (hlsAttributes rendition).lookup "GROUP-ID".toList = some group := by
  rw [selectedAudio] at h
  obtain ⟨entry, hentry, rfl⟩ := Option.map_eq_some_iff.mp h
  have hmem : entry ∈ (audioRenditions tables lines).filter fun entry =>
      entry.2.lookup "GROUP-ID".toList = some group := by
    rcases Option.or_eq_some_iff.mp hentry with hdefault | ⟨_, hhead⟩
    · exact List.mem_of_find?_eq_some hdefault
    · exact List.mem_of_mem_head? hhead
  obtain ⟨hrendition, hgroup⟩ := List.mem_filter.mp hmem
  obtain ⟨place, hplace, rfl⟩ := List.mem_map.mp hrendition
  obtain ⟨hline, haudio⟩ := List.mem_filter.mp hplace
  exact ⟨place.1, List.mem_zipIdx_iff_getElem?.mp hline, (Bool.and_eq_true_iff.mp haudio).1,
    of_decide_eq_true hgroup⟩

/-- Kept are the first variant of the selection and at most one rendition of its group. -/
theorem selectedMasterLines_spec {retained : List Nat} (h : selectedMasterLines tables lines = some retained) :
    ∃ stream, (variants tables lines).head? = some stream ∧ ∃ audio : Option Nat,
      retained = stream.1 :: (stream.1 + 1) :: audio.toList ∧
      ∀ index, audio = some index → ∃ rendition group, lines[index]? = some rendition ∧
        isAudioRendition tables rendition = true ∧ (hlsAttributes rendition).lookup "GROUP-ID".toList = some group ∧
        (hlsAttributes stream.2).lookup "AUDIO".toList = some group := by
  obtain ⟨stream, hstream, rfl⟩ := Option.map_eq_some_iff.mp h
  refine ⟨stream, hstream, ?_⟩
  dsimp only
  split
  · rename_i hgroup
    refine ⟨_, rfl, fun index haudio => ?_⟩
    obtain ⟨rendition, hline, hrendition, hlookup⟩ := selectedAudio_spec haudio
    refine ⟨rendition, _, hline, hrendition, hlookup, ?_⟩
    cases hnamed : (hlsAttributes stream.2).lookup "AUDIO".toList with
    | none => rw [hnamed] at hgroup; exact absurd rfl hgroup
    | some group => rfl
  · exact ⟨none, rfl, fun _ hnone => by cases hnone⟩

/-- A declared variant: its tag and its address stand in the playlist, one before the other. -/
theorem declared_mem {v : MasterVariant} (h : v ∈ declaredVariants tables lines) :
    (lines[v.stream.2]? = some v.stream.1 ∧ isStreamTag tables v.stream.1 = true) ∧
      (lines[v.address.2]? = some v.address.1 ∧ isAddress tables v.address.1 = true) ∧
      v.stream.2 < v.address.2 := by
  obtain ⟨haddress, hplain, hstream⟩ := declaredFrom_mem h
  rcases hstream with hnone | ⟨hstream, htag⟩
  · cases hnone
  · exact ⟨⟨List.mem_zipIdx_iff_getElem?.mp hstream, htag⟩, ⟨List.mem_zipIdx_iff_getElem?.mp haddress, hplain⟩,
      declaredFrom_forward (pairwise_zipIdx lines 0) (fun _ hnone => by cases hnone) h⟩

section First
variable {first : MasterVariant} {others : List MasterVariant}

theorem declared_after {v : MasterVariant} (h : declaredVariants tables lines = first :: others) (hv : v ∈ others) :
    first.address.2 < v.stream.2 := by
  have hordered : (declaredVariants tables lines).Pairwise fun v w => v.address.2 < w.stream.2 :=
    declaredFrom_ordered (pairwise_zipIdx lines 0)
  rw [h] at hordered
  exact List.rel_of_pairwise_cons hordered hv

/-- When the first declared variant has its address in the next line, it is the one that is selected. -/
theorem variants_head (h : declaredVariants tables lines = first :: others)
    (hnext : first.address.2 = first.stream.2 + 1) :
    (variants tables lines).head? = some (first.stream.2, first.stream.1) := by
  obtain ⟨⟨hstream, htag⟩, ⟨haddress, hplain⟩, hforward⟩ := declared_mem (h ▸ List.mem_cons_self)
  rw [hnext] at haddress
  have hmem : (first.stream.2, first.stream.1) ∈ variants tables lines :=
    mem_variants.mpr ⟨hstream, htag, first.address.1, haddress, hplain⟩
  have hordered : (variants tables lines).Pairwise fun a b => a.1 < b.1 := variants_ordered lines
  cases hvariants : variants tables lines with
  | nil => rw [hvariants] at hmem; cases hmem
  | cons selected rest =>
    rw [hvariants] at hmem hordered
    rcases List.mem_cons.mp hmem with heq | hlater
    · rw [heq]
      rfl
    · have hbefore : selected.1 < first.stream.2 := List.rel_of_pairwise_cons hordered hlater
      have hselected : selected ∈ variants tables lines := hvariants ▸ List.mem_cons_self
      obtain ⟨next, hdeclared⟩ := declared_of_mem_variants hselected
      rw [h] at hdeclared
      exfalso
      rcases List.mem_cons.mp hdeclared with hfirst | hother
      · rw [← hfirst] at hbefore
        exact Nat.lt_irrefl _ hbefore
      · have hafter := declared_after h hother
        dsimp only at hafter
        omega

end First

end Selection

section Loop
variable {D : Type} (rt : HlsRuntime D) (bounds : HlsBounds rt.seconds)
variable (descend : Chars → Procedure (HlsState D) HlsError Chars) (manifest : Manifest)

/-- Whether a variant is awaited after a line that is rewritten. -/
def awaits (line : Chars) (pendingVariant : Bool) : Bool :=
  if isTag rt.tables.toCharTables line then tagNameOf rt line = streamInf
  else decide (stripChars rt.tables.toCharTables line = []) && pendingVariant

/-- The lines that the loop rewrites, each with the flag that it meets. -/
def rewrittenFrom : List Entry → Bool → List (Entry × Bool)
  | [], _ => []
  | (line, index) :: rest, pendingVariant =>
    match leftOut rt manifest index line pendingVariant with
    | some pendingVariant => rewrittenFrom rest pendingVariant
    | none => ((line, index), pendingVariant) :: rewrittenFrom rest (awaits rt line pendingVariant)

/-- An address is fetched, a tag has its addresses fetched, and a blank line stays. -/
def rewriteEntry (entry : Entry × Bool) : Procedure (HlsState D) HlsError Chars :=
  let line := entry.1.1
  if isTag rt.tables.toCharTables line then do
    planDuration rt bounds manifest line
    replaceUris rt bounds descend manifest line
  else if stripChars rt.tables.toCharTables line = [] then pure line
  else do
    let remote ← attempt (rt.urljoin manifest.finalUrl (stripChars rt.tables.toCharTables line))
    fetchLine rt bounds descend manifest remote entry.2

/-- A line that is left out is neither written nor fetched, and the others are rewritten in their order. -/
theorem rewriteLines_eq (lines : List Entry) (pendingVariant : Bool) :
    rewriteLines rt bounds descend manifest lines pendingVariant =
      (rewrittenFrom rt manifest lines pendingVariant).mapM (rewriteEntry rt bounds descend manifest) := by
  induction lines generalizing pendingVariant with
  | nil => rfl
  | cons entry rest ih =>
    obtain ⟨line, index⟩ := entry
    rw [rewriteLines, rewriteLine, rewrittenFrom]
    cases leftOut rt manifest index line pendingVariant with
    | some next => simp [ih]
    | none =>
      simp only [List.mapM_cons, rewriteEntry, awaits]
      by_cases htag : isTag rt.tables.toCharTables line
      · simp [htag, rewriteTag, ih]
      · by_cases hblank : stripChars rt.tables.toCharTables line = []
        · simp [htag, hblank, ih]
        · simp [htag, hblank, rewriteUri, ih]

/-- The lines of a playlist that are rewritten. -/
def keptLines : List Entry := (rewrittenFrom rt manifest manifest.lines.zipIdx false).map Prod.fst

/-- Of the variants the first is kept with its own address, and no other one: neither its tag is kept nor its address
fetched. -/
structure SelectsFirst (first : MasterVariant) (others : List MasterVariant) : Prop where
  stream : first.stream ∈ keptLines rt manifest
  address : first.address ∈ keptLines rt manifest
  others : ∀ v ∈ others, v.stream ∉ keptLines rt manifest ∧ v.address ∉ keptLines rt manifest
  audio : SingleAudio rt.tables.toCharTables (keptLines rt manifest) first.stream.1

end Loop
section Kept
variable {D : Type} {rt : HlsRuntime D} {manifest : Manifest} {line : Chars} {index : Nat} {pendingVariant : Bool}

/-- A line of a master playlist stays when it is selected, or when it neither is a tag of a rendition, nor is awaited,
nor is an address after a stream tag. -/
theorem leftOut_eq_none : leftOut rt manifest index line pendingVariant = none ↔
    ∀ retained, manifest.retained rt = some retained → index ∈ retained ∨
      (playlistTags.contains (tagNameOf rt line) = false ∧ pendingVariant = false ∧
        (isTag rt.tables.toCharTables line = true ∨ index = 0 ∨
          afterStreamTag rt.tables.toCharTables manifest.lines index = false)) := by
  rw [leftOut]
  cases manifest.retained rt with
  | none => simp
  | some retained =>
    by_cases hmem : index ∈ retained
    · simp [hmem]
    · simp only [Option.some.injEq, forall_eq', hmem, false_or]
      cases playlistTags.contains (tagNameOf rt line) <;> cases pendingVariant <;>
        simp [afterStreamTag, Nat.pos_iff_ne_zero, Classical.or_iff_not_imp_left]

/-- After a line that is left out no variant is awaited. -/
theorem leftOut_eq_some {next : Bool} (h : leftOut rt manifest index line pendingVariant = some next) : next = false := by
  rw [leftOut] at h
  split at h
  · cases h
  · split at h
    · cases h
    · split at h
      · exact (Option.some.inj h).symm
      · rename_i hplain
        split at h
        · rw [← Option.some.inj h]
          exact (Bool.or_eq_false_iff.mp (Bool.eq_false_of_not_eq_true hplain)).2
        · cases h

/-- Where a variant may be awaited in a master playlist stands the selected address. -/
def Awaited (rt : HlsRuntime D) (manifest : Manifest) (index : Nat) : Prop :=
  ∀ retained, manifest.retained rt = some retained → index ∈ retained ∧
    ∃ line, manifest.lines[index]? = some line ∧ isAddress rt.tables.toCharTables line = true

theorem Awaited.leftOut_eq (h : Awaited rt manifest index) (line : Chars) (pendingVariant : Bool) :
    leftOut rt manifest index line pendingVariant = none :=
  leftOut_eq_none.mpr fun retained hretained => .inl (h retained hretained).1

/-- The flag is set after the selected stream tag only. -/
theorem awaits_next (hline : manifest.lines[index]? = some line)
    (hpending : pendingVariant = true → Awaited rt manifest index)
    (hkept : leftOut rt manifest index line pendingVariant = none) (h : awaits rt line pendingVariant = true) :
    Awaited rt manifest (index + 1) := by
  intro retained hretained
  rw [awaits] at h
  split at h
  · rename_i htag
    have hstream : tagNameOf rt line = streamInf := of_decide_eq_true h
    have hselected : index ∈ retained := by
      rcases leftOut_eq_none.mp hkept retained hretained with hmem | ⟨hother, _⟩
      · exact hmem
      · rw [hstream] at hother
        cases hother
    obtain ⟨stream, hhead, audio, rfl, haudio⟩ := selectedMasterLines_spec hretained
    obtain ⟨_, _, next, hnext, haddress⟩ := mem_variants.mp (List.mem_of_mem_head? hhead)
    rcases List.mem_cons.mp hselected with rfl | hrest
    · exact ⟨List.mem_cons_of_mem _ List.mem_cons_self, next, hnext, haddress⟩
    · exfalso
      rcases List.mem_cons.mp hrest with rfl | hrendition
      · rw [hline] at hnext
        cases hnext
        rw [isAddress_false htag] at haddress
        cases haddress
      · obtain ⟨rendition, group, hplace, hkind, _⟩ := haudio index (Option.mem_toList.mp hrendition)
        rw [hline] at hplace
        cases hplace
        have hmedia : tagName rt.tables.toCharTables line = mediaTag :=
          of_decide_eq_true (Bool.and_eq_true_iff.mp hkind).1
        rw [tagNameOf, if_pos htag, hmedia] at hstream
        exact absurd hstream (by decide)
  · exfalso
    obtain ⟨hblank, hflag⟩ := Bool.and_eq_true_iff.mp h
    obtain ⟨_, here, hhere, haddress⟩ := hpending hflag retained hretained
    rw [hline] at hhere
    cases hhere
    exact (isAddress_eq_true.mp haddress).2 (of_decide_eq_true hblank)

/-- The flag decides nothing that the selection has not decided: the loop keeps the lines that it would keep without. -/
theorem mem_rewrittenFrom (lines : List Chars) (k : Nat) {entry : Entry}
    (hlines : ∀ entry ∈ lines.zipIdx k, manifest.lines[entry.2]? = some entry.1)
    (hpending : pendingVariant = true → Awaited rt manifest k) :
    entry ∈ (rewrittenFrom rt manifest (lines.zipIdx k) pendingVariant).map Prod.fst ↔
      entry ∈ lines.zipIdx k ∧ leftOut rt manifest entry.2 entry.1 false = none := by
  induction lines generalizing k pendingVariant with
  | nil => simp [rewrittenFrom]
  | cons line rest ih =>
    rw [List.zipIdx_cons] at hlines ⊢
    obtain ⟨hline, hrest⟩ := List.forall_mem_cons.mp hlines
    have hflag : leftOut rt manifest k line pendingVariant = leftOut rt manifest k line false := by
      cases pendingVariant with
      | false => rfl
      | true => rw [(hpending rfl).leftOut_eq, (hpending rfl).leftOut_eq]
    rw [rewrittenFrom]
    cases hout : leftOut rt manifest k line pendingVariant with
    | some next =>
      dsimp only
      rw [ih (k + 1) hrest fun hnext => absurd hnext (leftOut_eq_some hout ▸ Bool.false_ne_true), List.mem_cons]
      constructor
      · rintro ⟨hmem, hkept⟩
        exact ⟨.inr hmem, hkept⟩
      · rintro ⟨rfl | hmem, hkept⟩
        · rw [← hflag, hout] at hkept
          cases hkept
        · exact ⟨hmem, hkept⟩
    | none =>
      dsimp only
      rw [List.map_cons, List.mem_cons, ih (k + 1) hrest (awaits_next hline hpending hout), List.mem_cons]
      constructor
      · rintro (rfl | ⟨hmem, hkept⟩)
        · exact ⟨.inl rfl, hflag.symm.trans hout⟩
        · exact ⟨.inr hmem, hkept⟩
      · rintro ⟨rfl | hmem, hkept⟩
        · exact .inl rfl
        · exact .inr ⟨hmem, hkept⟩

/-- A kept line is one of the playlist that is selected, if there is a selection, or is of no rendition. -/
theorem mem_keptLines {entry : Entry} : entry ∈ keptLines rt manifest ↔ manifest.lines[entry.2]? = some entry.1 ∧
    ∀ retained, manifest.retained rt = some retained → entry.2 ∈ retained ∨
      (playlistTags.contains (tagNameOf rt entry.1) = false ∧ (isTag rt.tables.toCharTables entry.1 = true ∨
        entry.2 = 0 ∨ afterStreamTag rt.tables.toCharTables manifest.lines entry.2 = false)) := by
  rw [keptLines, mem_rewrittenFrom manifest.lines 0 (fun _ h => List.mem_zipIdx_iff_getElem?.mp h)
    (fun h => by cases h), List.mem_zipIdx_iff_getElem?, leftOut_eq_none]
  simp only [true_and]

end Kept

section Settled
variable {D : Type} {rt : HlsRuntime D} {manifest : Manifest} {first : MasterVariant} {others : List MasterVariant}
variable {tables : CharTables} {line : Chars} {entry : Entry}

theorem isTag_of_isAudioRendition (h : isAudioRendition tables line = true) : isTag tables line = true :=
  isTag_of_tagName (of_decide_eq_true (Bool.and_eq_true_iff.mp h).1)

theorem not_stream_of_audio (h : isAudioRendition tables line = true) : ¬ isStreamTag tables line = true := by
  intro hstream
  have hmedia : tagName tables line = mediaTag := of_decide_eq_true (Bool.and_eq_true_iff.mp h).1
  rw [isStreamTag, hmedia] at hstream
  exact absurd hstream (by decide)

theorem SingleAudio.mono {entries entries' : List Entry} (h : SingleAudio tables entries line)
    (hsub : ∀ entry ∈ entries', entry ∈ entries) : SingleAudio tables entries' line where
  single := fun a ha b hb => h.single a (hsub a ha) b (hsub b hb)
  group := fun a ha => h.group a (hsub a ha)

theorem kept_of_none (hnone : manifest.retained rt = none) :
    entry ∈ keptLines rt manifest ↔ entry ∈ manifest.lines.zipIdx := by
  rw [mem_keptLines, hnone, List.mem_zipIdx_iff_getElem?]
  exact and_iff_left fun retained h => by cases h

theorem kept_of_retained {retained : List Nat} (hretained : manifest.retained rt = some retained)
    (hentry : manifest.lines[entry.2]? = some entry.1) (hmem : entry.2 ∈ retained) :
    entry ∈ keptLines rt manifest := by
  refine mem_keptLines.mpr ⟨hentry, fun retained' h => .inl ?_⟩
  rw [hretained] at h
  cases h
  exact hmem

/-- A tag of a rendition is kept only where it is selected. -/
theorem retained_of_kept {retained : List Nat} (hretained : manifest.retained rt = some retained)
    (hkept : entry ∈ keptLines rt manifest) (htag : isTag rt.tables.toCharTables entry.1 = true)
    (hlisted : playlistTags.contains (tagName rt.tables.toCharTables entry.1) = true) : entry.2 ∈ retained := by
  rcases (mem_keptLines.mp hkept).2 retained hretained with hmem | ⟨hother, _⟩
  · exact hmem
  · rw [tagNameOf, if_pos htag, hlisted] at hother
    cases hother

/-- An address is kept where it is selected, or where no line that starts like a stream tag stands before it. -/
theorem kept_address {retained : List Nat} (hretained : manifest.retained rt = some retained)
    (hentry : manifest.lines[entry.2]? = some entry.1) (haddress : isAddress rt.tables.toCharTables entry.1 = true) :
    entry ∈ keptLines rt manifest ↔ entry.2 ∈ retained ∨ entry.2 = 0 ∨
      afterStreamTag rt.tables.toCharTables manifest.lines entry.2 = false := by
  have htag : isTag rt.tables.toCharTables entry.1 = false := (isAddress_eq_true.mp haddress).1
  have hname : tagNameOf rt entry.1 = [] := by
    rw [tagNameOf, htag, if_neg Bool.false_ne_true]
  rw [mem_keptLines, hname, htag, hretained, and_iff_right hentry]
  have hunlisted : playlistTags.contains [] = false := by decide
  simp only [Option.some.injEq, forall_eq', hunlisted, true_and, Bool.false_eq_true, false_or]

/-- What is selected is a declared variant with its address in the next line, and audio of its group. -/
theorem retained_declared {retained : List Nat} (hretained : manifest.retained rt = some retained) :
    ∃ v ∈ declaredVariants rt.tables.toCharTables manifest.lines, v.address.2 = v.stream.2 + 1 ∧
      ∃ audio : Option Nat, retained = v.stream.2 :: v.address.2 :: audio.toList ∧
        ∀ index, audio = some index → ∃ rendition group, manifest.lines[index]? = some rendition ∧
          isAudioRendition rt.tables.toCharTables rendition = true ∧
          (hlsAttributes rendition).lookup "GROUP-ID".toList = some group ∧
          (hlsAttributes v.stream.1).lookup "AUDIO".toList = some group := by
  obtain ⟨stream, hhead, audio, rfl, haudio⟩ := selectedMasterLines_spec hretained
  obtain ⟨next, hdeclared⟩ := declared_of_mem_variants (List.mem_of_mem_head? hhead)
  exact ⟨_, hdeclared, rfl, audio, rfl, haudio⟩

section Declared
variable (h : declaredVariants rt.tables.toCharTables manifest.lines = first :: others)
include h

/-- The first variant with its address in the next line is selected, with at most one rendition of its group. -/
theorem retained_first (hnext : first.address.2 = first.stream.2 + 1) : ∃ audio : Option Nat,
    manifest.retained rt = some (first.stream.2 :: first.address.2 :: audio.toList) ∧
      ∀ index, audio = some index → ∃ rendition group, manifest.lines[index]? = some rendition ∧
        isAudioRendition rt.tables.toCharTables rendition = true ∧
        (hlsAttributes rendition).lookup "GROUP-ID".toList = some group ∧
        (hlsAttributes first.stream.1).lookup "AUDIO".toList = some group := by
  have hhead := variants_head h hnext
  cases hretained : manifest.retained rt with
  | none =>
    have hnone := Option.map_eq_none_iff.mp hretained
    rw [hhead] at hnone
    cases hnone
  | some retained =>
    obtain ⟨stream, hstream, audio, rfl, haudio⟩ := selectedMasterLines_spec hretained
    rw [hhead] at hstream
    cases hstream
    exact ⟨audio, hnext ▸ rfl, haudio⟩

/-- Where the address of the first variant is apart from its tag, another variant is selected, if any is. -/
theorem other_kept {retained : List Nat} (hapart : first.address.2 ≠ first.stream.2 + 1)
    (hretained : manifest.retained rt = some retained) : ∃ v ∈ others, v.stream ∈ keptLines rt manifest := by
  obtain ⟨v, hv, hnext, audio, rfl, _⟩ := retained_declared hretained
  have hmem := hv
  rw [h] at hmem
  rcases List.mem_cons.mp hmem with rfl | hother
  · exact absurd hnext hapart
  · exact ⟨v, hother, kept_of_retained hretained (declared_mem hv).1.1 List.mem_cons_self⟩

theorem selectsFirst_apart (hapart : first.address.2 ≠ first.stream.2 + 1) : SelectsFirst rt manifest first others ↔
    others = [] ∧ SingleAudio rt.tables.toCharTables manifest.lines.zipIdx first.stream.1 := by
  have hfirst := declared_mem (h ▸ List.mem_cons_self)
  cases hretained : manifest.retained rt with
  | some retained =>
    obtain ⟨v, hv, hkept⟩ := other_kept h hapart hretained
    refine iff_of_false (fun hsel => (hsel.others v hv).1 hkept) fun hnone => ?_
    rw [hnone.1] at hv
    cases hv
  | none =>
    constructor
    · intro hsel
      refine ⟨List.eq_nil_iff_forall_not_mem.mpr fun v hv => (hsel.others v hv).1 ?_,
        hsel.audio.mono fun entry hentry => (kept_of_none hretained).mpr hentry⟩
      have hstream := (declared_mem (h ▸ List.mem_cons_of_mem first hv)).1.1
      exact (kept_of_none hretained).mpr (List.mem_zipIdx_iff_getElem?.mpr hstream)
    · rintro ⟨rfl, haudio⟩
      exact {
        stream := (kept_of_none hretained).mpr (List.mem_zipIdx_iff_getElem?.mpr hfirst.1.1)
        address := (kept_of_none hretained).mpr (List.mem_zipIdx_iff_getElem?.mpr hfirst.2.1.1)
        others := fun v hv => absurd hv List.not_mem_nil
        audio := haudio.mono fun entry hentry => (kept_of_none hretained).mp hentry }

section Adjacent
variable (hnext : first.address.2 = first.stream.2 + 1)
include hnext

/-- A stream tag or an address after the first variant is not selected. -/
theorem later_not_retained {retained : List Nat} (hretained : manifest.retained rt = some retained)
    (hentry : manifest.lines[entry.2]? = some entry.1) (hafter : first.address.2 < entry.2)
    (haudio : ¬ isAudioRendition rt.tables.toCharTables entry.1 = true) : entry.2 ∉ retained := by
  obtain ⟨audio, hretained', hrendition⟩ := retained_first h hnext
  rw [hretained'] at hretained
  cases hretained
  intro hmem
  rcases List.mem_cons.mp hmem with heq | hrest
  · omega
  · rcases List.mem_cons.mp hrest with heq | hlisted
    · omega
    · obtain ⟨rendition, group, hplace, hkind, _⟩ := hrendition entry.2 (Option.mem_toList.mp hlisted)
      rw [hentry] at hplace
      cases hplace
      exact haudio hkind

/-- An audio rendition is kept where it is the selected one. -/
theorem audio_kept : ∃ audio : Option Nat,
    (∀ entry ∈ keptLines rt manifest, isAudioRendition rt.tables.toCharTables entry.1 = true → audio = some entry.2) ∧
      ∀ entry ∈ keptLines rt manifest, audio = some entry.2 →
        ∃ group, (hlsAttributes first.stream.1).lookup "AUDIO".toList = some group ∧
          (hlsAttributes entry.1).lookup "GROUP-ID".toList = some group := by
  obtain ⟨⟨hstream, htag⟩, ⟨haddress, hplain⟩, _⟩ := declared_mem (h ▸ List.mem_cons_self)
  obtain ⟨audio, hretained, hrendition⟩ := retained_first h hnext
  refine ⟨audio, fun entry hkept hkind => ?_, fun entry hkept hselected => ?_⟩
  · have hentry := (mem_keptLines.mp hkept).1
    have hlisted : playlistTags.contains (tagName rt.tables.toCharTables entry.1) = true := by
      rw [show tagName rt.tables.toCharTables entry.1 = mediaTag from
        of_decide_eq_true (Bool.and_eq_true_iff.mp hkind).1]
      decide
    have hmem := retained_of_kept hretained hkept (isTag_of_isAudioRendition hkind) hlisted
    rcases List.mem_cons.mp hmem with heq | hrest
    · rw [heq, hstream] at hentry
      rw [Option.some.inj hentry] at htag
      exact absurd htag (not_stream_of_audio hkind)
    · rcases List.mem_cons.mp hrest with heq | haudio
      · rw [heq, haddress] at hentry
        rw [Option.some.inj hentry, isAddress_false (isTag_of_isAudioRendition hkind)] at hplain
        cases hplain
      · exact Option.mem_toList.mp haudio
  · obtain ⟨rendition, group, hplace, _, hgroup, hnamed⟩ := hrendition entry.2 hselected
    rw [(mem_keptLines.mp hkept).1] at hplace
    cases hplace
    exact ⟨group, hnamed, hgroup⟩

theorem selectsFirst_adjacent : SelectsFirst rt manifest first others ↔
    ∀ v ∈ others, afterStreamTag rt.tables.toCharTables manifest.lines v.address.2 = true := by
  obtain ⟨⟨hstream, _⟩, ⟨haddress, _⟩, _⟩ := declared_mem (h ▸ List.mem_cons_self)
  obtain ⟨audio, hretained, _⟩ := retained_first h hnext
  have hlater {v : MasterVariant} (hv : v ∈ others) : v.address ∈ keptLines rt manifest ↔
      afterStreamTag rt.tables.toCharTables manifest.lines v.address.2 = false := by
    have hafter := declared_after h hv
    obtain ⟨_, ⟨hplace, hplain⟩, hforward⟩ := declared_mem (h ▸ List.mem_cons_of_mem first hv)
    have hnotaudio : ¬ isAudioRendition rt.tables.toCharTables v.address.1 = true := by
      intro hkind
      rw [isAddress_false (isTag_of_isAudioRendition hkind)] at hplain
      cases hplain
    have hunselected := later_not_retained h hnext hretained hplace (hafter.trans hforward) hnotaudio
    rw [kept_address hretained hplace hplain, or_iff_right hunselected, or_iff_right (by omega)]
  constructor
  · intro hsel v hv
    exact Bool.of_not_eq_false fun hfalse => (hsel.others v hv).2 ((hlater hv).mpr hfalse)
  · intro hlayout
    refine ⟨kept_of_retained hretained hstream List.mem_cons_self,
      kept_of_retained hretained haddress (List.mem_cons_of_mem _ List.mem_cons_self), fun v hv => ⟨fun hkept => ?_,
        fun hkept => ?_⟩, ?_⟩
    · obtain ⟨⟨hplace, htag⟩, _⟩ := declared_mem (h ▸ List.mem_cons_of_mem first hv)
      have hlisted : playlistTags.contains (tagName rt.tables.toCharTables v.stream.1) = true := by
        rw [show tagName rt.tables.toCharTables v.stream.1 = streamInf from of_decide_eq_true htag]
        decide
      exact later_not_retained h hnext hretained hplace (declared_after h hv) (fun hkind => not_stream_of_audio hkind htag)
        (retained_of_kept hretained hkept (isTag_of_isStreamTag htag) hlisted)
    · rw [hlater hv, hlayout v hv] at hkept
      cases hkept
    · obtain ⟨selected, hselected, hgroup⟩ := audio_kept h hnext
      refine ⟨fun a ha b hb haudio hbudio => ?_, fun a ha haudio => hgroup a ha (hselected a ha haudio)⟩
      have hplace : a.2 = b.2 := Option.some.inj ((hselected a ha haudio).symm.trans (hselected b hb hbudio))
      have hline := (mem_keptLines.mp ha).1
      rw [hplace, (mem_keptLines.mp hb).1] at hline
      exact Prod.ext (Option.some.inj hline).symm hplace

end Adjacent
end Declared

/-- The first variant alone is kept, with its own address and at most one audio rendition of its group, exactly when
the layout of the playlist is one that the selection reads as declared. -/
theorem selectsFirst_iff (h : declaredVariants rt.tables.toCharTables manifest.lines = first :: others) :
    SelectsFirst rt manifest first others ↔ SelectableLayout rt.tables.toCharTables manifest.lines first others := by
  rw [SelectableLayout]
  split
  · rename_i hnext
    exact selectsFirst_adjacent h hnext
  · rename_i hapart
    exact selectsFirst_apart h hapart

end Settled

section Inputs

def oneVariantLimits : HlsLimits Nat := { maxPlannedDuration := 60 }

/-- Two variants, and a blank line before the address of the second. -/
def blankLineMaster : String :=
  "#EXTM3U\n#EXT-X-STREAM-INF:BANDWIDTH=2\na.m3u8\n#EXT-X-STREAM-INF:BANDWIDTH=1\n\nb.m3u8\n"

/-- The same variants without the blank line. -/
def denseMaster : String :=
  "#EXTM3U\n#EXT-X-STREAM-INF:BANDWIDTH=2\na.m3u8\n#EXT-X-STREAM-INF:BANDWIDTH=1\nb.m3u8\n"

def masterNetwork (master : String) (url : Chars) : Chars × String :=
  if url = "s".toList then (url, master) else (url, "#EXTM3U\n#EXTINF:4,\nx.ts\n")

def masterManifest (master : String) : Manifest := ⟨"s".toList, "0s.m3u8".toList, splitLines master.toList⟩

def firstVariant : MasterVariant := ⟨("#EXT-X-STREAM-INF:BANDWIDTH=2".toList, 1), ("a.m3u8".toList, 2)⟩

def secondVariant (place : Nat) : MasterVariant :=
  ⟨("#EXT-X-STREAM-INF:BANDWIDTH=1".toList, 3), ("b.m3u8".toList, place)⟩

/-- The second variant loses its tag, but its address is fetched, as a media file. -/
theorem not_selectsFirst_blankLine :
    declaredVariants asciiTables.toCharTables (masterManifest blankLineMaster).lines =
        [firstVariant, secondVariant 5] ∧
      ¬ SelectsFirst (asciiRuntime (masterNetwork blankLineMaster)) (masterManifest blankLineMaster) firstVariant
        [secondVariant 5] ∧
      (downloadHlsPlaylist (asciiRuntime (masterNetwork blankLineMaster)) "s".toList oneVariantLimits [] none).run.downloads
        = ["x.ts".toList, "b.m3u8".toList] := by
  refine ⟨by decide +kernel, fun h => (h.others (secondVariant 5) (List.mem_singleton.mpr rfl)).2 ?_, by decide +kernel⟩
  decide +kernel

theorem selectsFirst_dense : SelectsFirst (asciiRuntime (masterNetwork denseMaster)) (masterManifest denseMaster)
    firstVariant [secondVariant 4] := by
  refine (selectsFirst_iff (by decide +kernel)).mpr ?_
  have hnext : firstVariant.address.2 = firstVariant.stream.2 + 1 := rfl
  rw [SelectableLayout, if_pos hnext]
  exact List.forall_mem_singleton.mpr (by decide +kernel)

end Inputs
end StockContent.Hls
