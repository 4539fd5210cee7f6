import StockContent.Visual.SealedPackets

/-! Runs of publications: which snapshots a replay finds as they were sealed. -/
namespace StockContent.Visual
open Storage Occurrence

section Sealed
variable {hashes : Hashes} {context : OccurrenceContext}

/-- The occurrence that a packet is about. -/
def packetId : Json → String
  | .obj packet =>
    match Json.lookup packet "knowledge_id" with
    | some (.str id) => id
    | _ => ""
  | _ => ""

@[simp] theorem packetId_json (packet : VisualEvidencePacket) : packetId packet.json = packet.knowledgeId := by
  simp [packetId, VisualEvidencePacket.json, Json.lookup_cons]

/-- The packet of an occurrence, under its own id. -/
def occurrencePacket (hashes : Hashes) (context : OccurrenceContext) (grounded : GroundedClaim) :
    VisualEvidencePacket :=
  occurrenceVisualEvidencePacket context.artifacts
    ⟨context.checks, grounded.evidenceWindowIds, grounded.draft, context.str⟩
    (claimOccurrence hashes context grounded).occurrenceId

theorem visualEvidence_claimOccurrence (grounded : GroundedClaim) :
    visualEvidence (claimOccurrence hashes context grounded) = (occurrencePacket hashes context grounded).json := by
  simp [visualEvidence, claimOccurrence, occurrencePacket, Json.lookup_cons, VisualEvidencePacket.json]

theorem mem_claimOccurrences {occurrence : ClaimOccurrence} (h : occurrence ∈ claimOccurrences hashes context) :
    IsOccurrenceId occurrence.occurrenceId ∧ ∃ packet : VisualEvidencePacket,
      visualEvidence occurrence = packet.json ∧ packet.knowledgeId = occurrence.occurrenceId := by
  obtain ⟨grounded, -, rfl⟩ := List.mem_map.mp h
  exact ⟨isOccurrenceId_claimOccurrence context grounded, occurrencePacket hashes context grounded,
    visualEvidence_claimOccurrence grounded, rfl⟩

/-- The occurrences of a run that have one id carry one packet. -/
def Coherent (hashes : Hashes) (context : OccurrenceContext) : Prop :=
  ∀ occurrence ∈ claimOccurrences hashes context, ∀ other ∈ claimOccurrences hashes context,
    occurrence.occurrenceId = other.occurrenceId → visualEvidence occurrence = visualEvidence other

theorem packetId_visualEvidence {occurrence : ClaimOccurrence} (h : occurrence ∈ claimOccurrences hashes context) :
    packetId (visualEvidence occurrence) = occurrence.occurrenceId := by
  obtain ⟨-, packet, hpacket, hid⟩ := mem_claimOccurrences h
  rw [hpacket, packetId_json, hid]

/-- The sealed packets are those of the run's occurrences. -/
theorem mem_sealed (hcoherent : Coherent hashes context) {packet : Json} :
    packet ∈ (sealedSnapshot hashes context).occurrencePackets ↔
      ∃ occurrence ∈ claimOccurrences hashes context, visualEvidence occurrence = packet := by
  constructor
  · intro h
    exact List.mem_map.mp (mem_of_stableMembership h)
  · rintro ⟨occurrence, hin, rfl⟩
    have htext : hashes.text (visualEvidence occurrence) ∈
        (sealedSnapshot hashes context).occurrencePackets.map hashes.text :=
      mem_keys_stableMembership.mpr (List.mem_map_of_mem (List.mem_map_of_mem hin))
    obtain ⟨kept, hkept, heq⟩ := List.mem_map.mp htext
    obtain ⟨other, hother, rfl⟩ := List.mem_map.mp (mem_of_stableMembership hkept)
    obtain ⟨hplain, p, hp, hpid⟩ := mem_claimOccurrences hin
    obtain ⟨hplain', q, hq, hqid⟩ := mem_claimOccurrences hother
    rw [hp, hq] at heq
    have hsame := knowledgeId_of_text (hqid ▸ hplain') (hpid ▸ hplain) heq
    rw [hcoherent occurrence hin other hother (by rw [← hpid, ← hqid, hsame])]
    exact hkept

theorem mem_sealed_ids {id : String} :
    id ∈ (sealedSnapshot hashes context).occurrenceIds ↔
      ∃ occurrence ∈ claimOccurrences hashes context, occurrence.occurrenceId = id := by
  constructor
  · intro h
    exact List.mem_map.mp (mem_of_stableMembership h)
  · rintro ⟨occurrence, hin, rfl⟩
    have htext : hashes.text (.str occurrence.occurrenceId) ∈
        (sealedSnapshot hashes context).occurrenceIds.map fun id => hashes.text (.str id) :=
      mem_keys_stableMembership.mpr (List.mem_map_of_mem (List.mem_map_of_mem hin))
    obtain ⟨kept, hkept, heq⟩ := List.mem_map.mp htext
    obtain ⟨other, hother, rfl⟩ := List.mem_map.mp (mem_of_stableMembership hkept)
    rw [text_str_inj (mem_claimOccurrences hother).1 (mem_claimOccurrences hin).1] at heq
    exact heq ▸ hkept

/-- The ids and the packets of a snapshot are in one order. -/
theorem sealed_order (hcoherent : Coherent hashes context) : (sealedSnapshot hashes context).occurrenceIds =
    (sealedSnapshot hashes context).occurrencePackets.map packetId := by
  let before (a b : String) : Prop := hashes.text (.str a) < hashes.text (.str b)
  have : Std.Irrefl before := ⟨fun _ => lt_irrefl _⟩
  have : Std.Antisymm before := ⟨fun _ _ h h' => absurd (h.trans h') (lt_irrefl _)⟩
  have hids : (sealedSnapshot hashes context).occurrenceIds.Pairwise before := stableMembership_pairwise _ _
  have hpackets : ((sealedSnapshot hashes context).occurrencePackets.map packetId).Pairwise before := by
    rw [List.pairwise_map]
    refine (stableMembership_pairwise hashes.text _).imp_of_mem fun hp hq hlt => ?_
    obtain ⟨occurrence, hin, rfl⟩ := List.mem_map.mp (mem_of_stableMembership hp)
    obtain ⟨other, hother, rfl⟩ := List.mem_map.mp (mem_of_stableMembership hq)
    obtain ⟨hplain, p, hp, hpid⟩ := mem_claimOccurrences hin
    obtain ⟨hplain', q, hq, hqid⟩ := mem_claimOccurrences hother
    have hne : p.knowledgeId ≠ q.knowledgeId := by
      intro he
      rw [hcoherent occurrence hin other hother (by rw [← hpid, ← hqid, he])] at hlt
      exact lt_irrefl _ hlt
    rw [hp, hq] at hlt ⊢
    rw [packetId_json, packetId_json]
    exact text_lt_of_packets (hpid ▸ hplain) (hqid ▸ hplain') hne hlt
  refine hids.eq_of_mem_iff hpackets fun id => ?_
  rw [mem_sealed_ids, List.mem_map]
  constructor
  · rintro ⟨occurrence, hin, rfl⟩
    exact ⟨_, (mem_sealed hcoherent).mpr ⟨occurrence, hin, rfl⟩, packetId_visualEvidence hin⟩
  · rintro ⟨packet, hpacket, rfl⟩
    obtain ⟨occurrence, hin, rfl⟩ := (mem_sealed hcoherent).mp hpacket
    exact ⟨occurrence, hin, (packetId_visualEvidence hin).symm⟩

end Sealed

section Replayed
variable {hashes : Hashes} {context : OccurrenceContext} {rows rows' : OccurrenceTable}

theorem occurrenceRow_eq_ok {id : String} {row : ClaimOccurrence} :
    occurrenceRow rows id = .ok row ↔ rows.get id = some row := by
  rw [occurrenceRow]
  cases h : rows.get id with
  | none => simp
  | some stored =>
    dsimp only
    rw [then_eq_ok, require_eq_ok]
    constructor
    · rintro ⟨-, h⟩
      cases h
      rfl
    · rintro ⟨⟩
      exact ⟨decide_eq_true (Table.get_key h), rfl⟩

private theorem exists_forall₂ {A B : Type} {R : A → B → Prop} {xs : List A} (h : ∀ x ∈ xs, ∃ y, R x y) :
    ∃ ys, List.Forall₂ R xs ys := by
  induction xs with
  | nil => exact ⟨[], .nil⟩
  | cons x xs ih =>
    obtain ⟨⟨y, hy⟩, hxs⟩ := List.forall_mem_cons.mp h
    obtain ⟨ys, hys⟩ := ih hxs
    exact ⟨y :: ys, .cons hy hys⟩

private theorem exists_of_forall₂ {A B : Type} {R S : A → B → Prop} {xs : List A} {ys : List B}
    (h : List.Forall₂ R xs ys) (h' : List.Forall₂ S xs ys) {x : A} (hx : x ∈ xs) : ∃ y, R x y ∧ S x y := by
  induction h with
  | nil => cases hx
  | cons hr _ ih =>
    obtain ⟨hs, hss⟩ := List.forall₂_cons.mp h'
    rcases List.mem_cons.mp hx with rfl | hx
    · exact ⟨_, hr, hs⟩
    · exact ih hss hx

/-- The rows that are found for the packets of a snapshot are those of its ids, each once. -/
theorem rows_of_packets (hcoherent : Coherent hashes context) {found : List ClaimOccurrence}
    (h : List.Forall₂ (fun packet row => rows.get (packetId packet) = some row)
      (sealedSnapshot hashes context).occurrencePackets found) :
    (sealedSnapshot hashes context).occurrenceIds.mapM (occurrenceRow rows) = .ok found ∧
      firstOfEach ClaimOccurrence.occurrenceId [] found = found := by
  have hkeys : found.map (·.occurrenceId) = (sealedSnapshot hashes context).occurrenceIds := by
    rw [sealed_order hcoherent, ← List.forall₂_eq_eq_eq, List.forall₂_map_left_iff, List.forall₂_map_right_iff]
    exact h.flip.imp fun _ _ hrow => Table.get_key hrow
  have hids : (sealedSnapshot hashes context).occurrenceIds.Nodup :=
    (stableMembership_pairwise _ _).imp fun hlt => fun he => lt_irrefl _ (he ▸ hlt)
  constructor
  · rw [sealed_order hcoherent, mapM_eq_ok_iff, List.forall₂_map_left_iff]
    exact h.imp fun _ _ hrow => occurrenceRow_eq_ok.mpr hrow
  · exact firstOfEach_of_nodup (hkeys ▸ hids) fun _ _ => List.not_mem_nil

/-- A replay takes a snapshot whose occurrences have rows with their packets. -/
theorem validateSealedPackets_iff (hcoherent : Coherent hashes context) :
    validateSealedPackets rows (sealedSnapshot hashes context) = .ok () ↔
      ∀ occurrence ∈ claimOccurrences hashes context, ∃ row, rows.get occurrence.occurrenceId = some row ∧
        (visualEvidence occurrence).same (visualEvidence row) = true := by
  constructor
  · intro h occurrence hin
    obtain ⟨found, hfound, h⟩ := bind_eq_ok.mp h
    have hrows := mapM_eq_ok_iff.mp hfound
    rw [sealed_order hcoherent, List.forall₂_map_left_iff] at hrows
    have hget := hrows.imp fun _ _ hrow => occurrenceRow_eq_ok.mp hrow
    rw [(rows_of_packets hcoherent hget).2, require_eq_ok, Json.same_arr, List.forall₂_map_right_iff] at h
    have hpacket := (mem_sealed hcoherent).mpr ⟨occurrence, hin, rfl⟩
    obtain ⟨row, hrow, hsame⟩ := exists_of_forall₂ hget h hpacket
    rw [packetId_visualEvidence hin] at hrow
    exact ⟨row, hrow, hsame⟩
  · intro h
    have hrows : ∀ packet ∈ (sealedSnapshot hashes context).occurrencePackets,
        ∃ row, rows.get (packetId packet) = some row ∧ packet.same (visualEvidence row) = true := by
      intro packet hpacket
      obtain ⟨occurrence, hin, rfl⟩ := (mem_sealed hcoherent).mp hpacket
      rw [packetId_visualEvidence hin]
      exact h occurrence hin
    obtain ⟨found, hfound⟩ := exists_forall₂ hrows
    obtain ⟨hids, hfirst⟩ := rows_of_packets hcoherent (hfound.imp fun _ _ hrow => hrow.1)
    rw [validateSealedPackets, hids, ok_bind, hfirst, require_eq_ok, Json.same_arr, List.forall₂_map_right_iff]
    exact hfound.imp fun _ _ hrow => hrow.2

/-- A replay that found all rows finds the same ones later. -/
theorem validateSealedPackets_mono {snapshot : SealedSnapshot}
    (hrows : ∀ id row, rows.get id = some row → rows'.get id = some row)
    (h : validateSealedPackets rows snapshot = .ok ()) : validateSealedPackets rows' snapshot = .ok () := by
  obtain ⟨found, hfound, h⟩ := bind_eq_ok.mp h
  have hlater : snapshot.occurrenceIds.mapM (occurrenceRow rows') = .ok found :=
    mapM_eq_ok_iff.mpr ((mapM_eq_ok_iff.mp hfound).imp fun id row hrow =>
      occurrenceRow_eq_ok.mpr (hrows id row (occurrenceRow_eq_ok.mp hrow)))
  rw [validateSealedPackets, hlater, ok_bind]
  exact h

end Replayed

section Runs
variable {hashes : Hashes} {context : OccurrenceContext} {db db' : PublicationDb}

/-- A publication repeats the packets of occurrences that are stored, and has one packet for each of its own. -/
def RepeatsPackets (hashes : Hashes) (db : PublicationDb) (context : OccurrenceContext) : Prop :=
  Coherent hashes context ∧ ∀ occurrence ∈ claimOccurrences hashes context,
    ∀ row ∈ db.occurrences.get occurrence.occurrenceId, (visualEvidence occurrence).same (visualEvidence row) = true

instance : Decidable (Coherent hashes context) :=
  inferInstanceAs (Decidable (∀ occurrence ∈ _, ∀ other ∈ _, _ → _))

instance : Decidable (RepeatsPackets hashes db context) :=
  inferInstanceAs (Decidable (Coherent hashes context ∧ ∀ occurrence ∈ _, ∀ row ∈ Table.get _ _, _))

theorem publish_eq_ok (h : publish hashes db context = .ok db') :
    saveAll hashes db.occurrences (claimOccurrences hashes context) = .ok db'.occurrences ∧
      db'.snapshots = db.snapshots ++ [sealedSnapshot hashes context] := by
  obtain ⟨rows, hrows, h⟩ := bind_eq_ok.mp h
  cases h
  exact ⟨hrows, rfl⟩

/-- What a publication seals is found by a replay, if and only if it repeats the packets of stored occurrences. -/
theorem published_replayable_iff (hcoherent : Coherent hashes context) (h : publish hashes db context = .ok db') :
    validateSealedPackets db'.occurrences (sealedSnapshot hashes context) = .ok () ↔ RepeatsPackets hashes db context := by
  obtain ⟨hsave, -⟩ := publish_eq_ok h
  rw [validateSealedPackets_iff hcoherent]
  constructor
  · intro hfound
    refine ⟨hcoherent, fun occurrence hin row hrow => ?_⟩
    obtain ⟨found, hget, hsame⟩ := hfound occurrence hin
    rw [saveAll_get hsave, hrow, Option.some_or] at hget
    cases hget
    exact hsame
  · rintro ⟨-, hrepeats⟩ occurrence hin
    obtain ⟨row, hget, hstored | ⟨-, first, hfirst, hid, rfl⟩⟩ := saveAll_stored hsave hin
    · exact ⟨row, hget, hrepeats occurrence hin row hstored⟩
    · refine ⟨_, hget, ?_⟩
      rw [hcoherent occurrence hin first hfirst hid.symm]
      exact Json.same_self _

theorem validateOccurrenceIdentity_claimOccurrence (grounded : GroundedClaim) :
    validateOccurrenceIdentity hashes (claimOccurrence hashes context grounded) = .ok () := by
  rw [validateOccurrenceIdentity, then_eq_ok, require_eq_ok, require_eq_ok]
  exact ⟨decide_eq_true rfl, decide_eq_true rfl⟩

/-- A publication goes through unless an id stands for another identity. -/
theorem publish_ok
    (hstored : ∀ occurrence ∈ claimOccurrences hashes context, ∀ row, db.occurrences.get occurrence.occurrenceId =
      some row → occurrenceIdentity row = occurrenceIdentity occurrence)
    (hown : ∀ occurrence ∈ claimOccurrences hashes context, ∀ other ∈ claimOccurrences hashes context,
      other.occurrenceId = occurrence.occurrenceId → occurrenceIdentity other = occurrenceIdentity occurrence) :
    ∃ db', publish hashes db context = .ok db' := by
  have hvalid : ∀ occurrence ∈ claimOccurrences hashes context,
      validateOccurrenceIdentity hashes occurrence = .ok () :=
    List.forall_mem_map.mpr fun grounded _ => validateOccurrenceIdentity_claimOccurrence grounded
  obtain ⟨rows, hrows⟩ := saveAll_ok hvalid hstored hown
  refine ⟨⟨rows, db.snapshots ++ [sealedSnapshot hashes context]⟩, ?_⟩
  rw [publish, hrows]
  rfl

/-- A publication that is made once more repeats its packets. -/
theorem RepeatsPackets.again (h : RepeatsPackets hashes db context) :
    RepeatsPackets hashes ((publicationStore hashes).step db context) context := by
  cases hp : publish hashes db context with
  | error e =>
    have hstep : (publicationStore hashes).step db context = db := by
      simp [Machine.step, publicationStore, hp]
    rwa [hstep]
  | ok db' =>
    have hstep : (publicationStore hashes).step db context = db' := by
      simp [Machine.step, publicationStore, hp]
    rw [hstep]
    refine ⟨h.1, fun occurrence hin row hrow => ?_⟩
    have hfound := (validateSealedPackets_iff h.1).mp ((published_replayable_iff h.1 hp).mpr h) occurrence hin
    obtain ⟨found, hget, hsame⟩ := hfound
    rw [hget] at hrow
    cases hrow
    exact hsame

/-- Every snapshot is replayable. -/
def Replayable (db : PublicationDb) : Prop :=
  ∀ snapshot ∈ db.snapshots, validateSealedPackets db.occurrences snapshot = .ok ()

theorem replayable_step (h : Replayable db) (hrepeats : RepeatsPackets hashes db context) :
    Replayable ((publicationStore hashes).step db context) := by
  cases hp : publish hashes db context with
  | error e =>
    have hstep : (publicationStore hashes).step db context = db := by
      simp [Machine.step, publicationStore, hp]
    rwa [hstep]
  | ok db' =>
    have hstep : (publicationStore hashes).step db context = db' := by
      simp [Machine.step, publicationStore, hp]
    obtain ⟨hsave, hsnapshots⟩ := publish_eq_ok hp
    rw [hstep]
    intro snapshot hin
    rw [hsnapshots, List.mem_append, List.mem_singleton] at hin
    rcases hin with hold | rfl
    · refine validateSealedPackets_mono (fun id row hrow => ?_) (h snapshot hold)
      rw [saveAll_get hsave, hrow, Option.some_or]
    · exact (published_replayable_iff hrepeats.1 hp).mpr hrepeats

/-- Snapshots stay replayable in every run whose publications repeat the packets of occurrences they share. -/
theorem published_snapshots_replayable (hashes : Hashes) (contexts : List OccurrenceContext)
    (h : (publicationStore hashes).Along (RepeatsPackets hashes) .empty contexts) :
    Replayable ((publicationStore hashes).run .empty contexts) :=
  (publicationStore hashes).run_of_along (fun _ _ => replayable_step) (fun _ hin => by cases hin) h

end Runs

section Reprocessing

/-- A digest that tells texts apart by their size. -/
def sizeHashes : Hashes where
  floatText := fun _ => "0.5"
  hexdigest := fun text => String.ofList (List.replicate 64 (Json.hexDigit (text.utf8ByteSize % 16)))
  length := by
    intro text
    rw [String.length_ofList, List.length_replicate]
  digits := by
    have hdigits : ∀ i < 16, Json.hexDigit i ∈ "0123456789abcdef".toList := by decide
    intro text c hc
    rw [String.toList_ofList] at hc
    rw [List.eq_of_mem_replicate hc]
    exact hdigits _ (Nat.mod_lt _ (by decide))

/-- The frame of the source's only window, if a run could take it. -/
def takenFrame (taken : Bool) : VisualArtifacts where
  frames := if taken then [⟨"art_frame", "f1", "frame-1", 1000, "sha256:image", ["window-1"]⟩] else []
  ocr := []
  vision := []
  addressed := by cases taken <;> simp

def groundedClaim : GroundedClaim where
  claimId := "claim-1"
  primaryEvidenceRefs := ["evidence-1"]
  draft := { semanticSegmentId := "segment-1" }
  extractionModelId := "model"
  extractionPromptVersion := "v1"
  semanticEnvelope := .obj []
  evidenceWindowIds := ["window-1"]

/-- A run over one source that makes one occurrence. -/
def processing (taken : Bool) : OccurrenceContext where
  sourceArtifactId := "art_source"
  transcriptArtifactId := "art_transcript"
  times :=
    { ingestedAt := .ofUtc 0, extractionCompletedAt := .ofUtc 0, snapshotCommittedAt := .ofUtc 1
      availableFrom := .ofUtc 1, dependencies := by decide, committed := by decide }
  artifacts := takenFrame taken
  checks := []
  str := fun _ => ""
  claims := [groundedClaim]
  packetArtifactId := "art_packets"

theorem processing_coherent (hashes : Hashes) (taken : Bool) : Coherent hashes (processing taken) := by
  intro occurrence hin other hother _
  rw [List.mem_singleton.mp hin, List.mem_singleton.mp hother]

theorem repeated_snapshots_replayable : Replayable ((publicationStore sizeHashes).run .empty
    [processing true, processing true]) :=
  have hfirst : RepeatsPackets sizeHashes .empty (processing true) :=
    ⟨processing_coherent sizeHashes true, fun _ _ _ hrow => by cases hrow⟩
  published_snapshots_replayable sizeHashes _ ⟨hfirst, hfirst.again, trivial⟩

theorem occurrenceIdentity_processing (hashes : Hashes) (first second : Bool) :
    occurrenceIdentity (claimOccurrence hashes (processing first) groundedClaim) =
      occurrenceIdentity (claimOccurrence hashes (processing second) groundedClaim) := rfl

private theorem reprocessing (hashes : Hashes) :
    ∃ db, (publicationStore hashes).run .empty [processing false, processing true] = db ∧
      db.snapshots = [sealedSnapshot hashes (processing false), sealedSnapshot hashes (processing true)] ∧
      validateSealedPackets db.occurrences (sealedSnapshot hashes (processing true)) ≠ .ok () := by
  have hown (taken : Bool) : ∀ occurrence ∈ claimOccurrences hashes (processing taken),
      ∀ other ∈ claimOccurrences hashes (processing taken), other.occurrenceId = occurrence.occurrenceId →
        occurrenceIdentity other = occurrenceIdentity occurrence := by
    intro occurrence hin other hother _
    rw [List.mem_singleton.mp hin, List.mem_singleton.mp hother]
  obtain ⟨first, hfirst⟩ := @publish_ok hashes (processing false) .empty (fun _ _ row hrow => by cases hrow) (hown false)
  obtain ⟨hsave, hsnapshots⟩ := publish_eq_ok hfirst
  have hid : (claimOccurrence hashes (processing true) groundedClaim).occurrenceId =
      (claimOccurrence hashes (processing false) groundedClaim).occurrenceId := rfl
  have hstored : first.occurrences.get (claimOccurrence hashes (processing true) groundedClaim).occurrenceId =
      some (claimOccurrence hashes (processing false) groundedClaim).stored := by
    rw [saveAll_get hsave, hid]
    change Option.or none (([claimOccurrence hashes (processing false) groundedClaim].find? _).map _) = _
    simp
  have hstoredPacket : visualEvidence (claimOccurrence hashes (processing false) groundedClaim).stored =
      (occurrencePacket hashes (processing false) groundedClaim).json := visualEvidence_claimOccurrence groundedClaim
  have htaken : (occurrencePacket hashes (processing true) groundedClaim).reason = some .crosscheckMissing := rfl
  have hmissed : (occurrencePacket hashes (processing false) groundedClaim).reason = some .frameMissing := rfl
  obtain ⟨second, hsecond⟩ := @publish_ok hashes (processing true) first (by
    intro occurrence hin row hrow
    rw [List.mem_singleton.mp hin] at hrow ⊢
    rw [hstored] at hrow
    cases hrow
    exact (occurrenceIdentity_stored _).trans (occurrenceIdentity_processing hashes false true)) (hown true)
  refine ⟨second, ?_, ?_, ?_⟩
  · simp [Machine.step, publicationStore, hfirst, hsecond]
  · rw [(publish_eq_ok hsecond).2, hsnapshots]
    rfl
  · intro hfound
    have hrepeats := (published_replayable_iff (processing_coherent hashes true) hsecond).mp hfound
    have hsame := hrepeats.2 _ List.mem_cons_self _ hstored
    rw [hstoredPacket, visualEvidence_claimOccurrence] at hsame
    have hreason := reason_of_same hsame
    rw [htaken, hmissed] at hreason
    cases hreason

/-- A second run that takes the frame is published, and a replay does not find its packet. -/
theorem reprocessed_snapshot_differs :
    let db := (publicationStore sizeHashes).run .empty [processing false, processing true]
    db.snapshots = [sealedSnapshot sizeHashes (processing false), sealedSnapshot sizeHashes (processing true)] ∧
      validateSealedPackets db.occurrences (sealedSnapshot sizeHashes (processing true)) ≠ .ok () := by
  obtain ⟨db, rfl, hsnapshots, hdiffers⟩ := reprocessing sizeHashes
  exact ⟨hsnapshots, hdiffers⟩

end Reprocessing
end StockContent.Visual
