import StockContent.Bundle.BundleRepository
import StockContent.Storage.JsonObject

/-! Retry keys over whole runs: what a key was bound to once it stays bound to. -/
namespace StockContent.Bundle
open Storage

section Columns
variable {fields bundle : BundlePayload} {key text : String} {now : Time} {row : ContentKnowledgeBundleRow}

theorem textColumn_ok : textColumn fields key = .ok text ↔ Json.lookup fields key = some (.str text) := by
  rw [textColumn]
  cases Json.lookup fields key with
  | none => exact iff_of_false nofun nofun
  | some v =>
    cases v with
    | str other => simp
    | null | bool _ | int _ | float _ | arr _ | obj _ => exact iff_of_false nofun nofun

/-- The columns of a bundle are its own. -/
theorem bundleValues_ok (h : bundleValues bundle now = .ok row) :
    row.payload = bundle ∧ Json.lookup bundle "bundle_id" = some (.str row.bundleId) ∧
      Json.lookup bundle "bundle_hash" = some (.str row.bundleHash) := by
  rw [bundleValues] at h
  obtain ⟨bundleId, hid, h⟩ := bind_eq_ok.mp h
  obtain ⟨bundleHash, hhash, h⟩ := bind_eq_ok.mp h
  obtain ⟨_, _, h⟩ := bind_eq_ok.mp h
  obtain ⟨_, _, h⟩ := bind_eq_ok.mp h
  obtain ⟨_, _, h⟩ := bind_eq_ok.mp h
  obtain ⟨_, _, h⟩ := bind_eq_ok.mp h
  obtain ⟨_, _, h⟩ := bind_eq_ok.mp h
  obtain ⟨_, _, h⟩ := bind_eq_ok.mp h
  cases h
  exact ⟨rfl, textColumn_ok.mp hid, textColumn_ok.mp hhash⟩

end Columns

/-- Stored bundles say their own ids, no two share a hash, and every key is bound to one of them. -/
structure BundlesSound (db : BundleDb) : Prop where
  named : ∀ row ∈ db.bundles.rows, Json.lookup row.payload "bundle_id" = some (.str row.bundleId)
  hashes : (db.bundles.rows.map (·.bundleHash)).Nodup
  mapped : ∀ mapping ∈ db.mappings.rows, ∃ row, db.bundles.get mapping.bundleId = some row

section Bundles
variable {db : BundleDb} {bundle result : BundlePayload} {bundles : KnowledgeBundleTable} {now : Time}
  {row : ContentKnowledgeBundleRow}

theorem insertIgnore_ok (h : insertIgnoreConflict row db.bundles = some bundles) :
    row.bundleHash ∉ db.bundles.rows.map (·.bundleHash) ∧ db.bundles.insert row = some bundles := by
  rw [insertIgnoreConflict] at h
  split at h
  · cases h
  · rename_i hfresh
    refine ⟨fun hmem => hfresh ?_, h⟩
    obtain ⟨other, hother, hhash⟩ := List.mem_map.mp hmem
    exact List.any_eq_true.mpr ⟨other, hother, decide_eq_true hhash⟩

theorem insertIgnore_none (h : insertIgnoreConflict row db.bundles = none) :
    ∃ stored, db.bundles.rows.find? (sharesKey row) = some stored := by
  cases hfind : db.bundles.rows.find? (sharesKey row) with
  | some stored => exact ⟨stored, rfl⟩
  | none =>
    have hnone := List.find?_eq_none.mp hfind
    rw [insertIgnoreConflict] at h
    split at h
    · rename_i htaken
      obtain ⟨other, hother, hhash⟩ := List.any_eq_true.mp htaken
      refine absurd ?_ (hnone other hother)
      rw [sharesKey, of_decide_eq_true hhash, beq_self_eq_true, Bool.or_true]
    · obtain ⟨other, hother⟩ := Option.ne_none_iff_exists'.mp (Table.insert_eq_none.mp h)
      refine absurd ?_ (hnone other (Table.mem_of_get hother))
      rw [sharesKey, Table.get_key hother, beq_self_eq_true, Bool.true_or]

/-- A bundle that was inserted or found is stored under its id, with its hash. -/
theorem insertOrGet_ok (hdb : BundlesSound db) (h : insertOrGetImmutable bundle now db.bundles = .ok (bundles, result)) :
    ∃ row stored, bundleValues bundle now = .ok row ∧ bundles.get row.bundleId = some stored ∧ stored.payload = result ∧
      stored.bundleHash = row.bundleHash ∧ (Json.obj result).same (.obj bundle) = true ∧
        (bundles = db.bundles ∨ insertIgnoreConflict row db.bundles = some bundles) := by
  rw [insertOrGetImmutable] at h
  obtain ⟨row, hrow, h⟩ := bind_eq_ok.mp h
  obtain ⟨hpayload, hid, _⟩ := bundleValues_ok hrow
  cases hinsert : insertIgnoreConflict row db.bundles with
  | some inserted =>
    simp only [hinsert] at h
    cases h
    refine ⟨row, row, hrow, ?_, hpayload, rfl, Json.same_self _, .inr hinsert⟩
    rw [Table.get_insert (insertIgnore_ok hinsert).2, if_pos rfl]
  | none =>
    obtain ⟨stored, hstored⟩ := insertIgnore_none hinsert
    simp only [hinsert, hstored] at h
    split at h
    · cases h
    · rename_i hagrees
      obtain ⟨hhash, hsame⟩ := not_or.mp hagrees
      cases h
      have hmem := List.mem_of_find?_eq_some hstored
      have hsame : (Json.obj stored.payload).same (.obj bundle) = true := by simpa using hsame
      have hname := Json.lookup_text_of_same hsame (hdb.named stored hmem)
      rw [hid] at hname
      have hids : row.bundleId = stored.bundleId := Json.str.inj (Option.some.inj hname)
      exact ⟨row, stored, hrow, hids ▸ Table.get_of_mem hmem, rfl, not_not.mp hhash, hsame, .inl rfl⟩

/-- Inserting keeps the stored bundles sound and in place. -/
theorem BundlesSound.inserted (hdb : BundlesSound db) (hrow : bundleValues bundle now = .ok row)
    (h : bundles = db.bundles ∨ insertIgnoreConflict row db.bundles = some bundles) :
    BundlesSound { db with bundles } ∧ ∀ id stored, db.bundles.get id = some stored → bundles.get id = some stored := by
  rcases h with rfl | hinsert
  · exact ⟨hdb, fun _ _ h => h⟩
  · obtain ⟨hfresh, hinserted⟩ := insertIgnore_ok hinsert
    have hrows := (Table.insert_eq_some hinserted).2
    have hkept : ∀ id stored, db.bundles.get id = some stored → bundles.get id = some stored := by
      intro id stored hstored
      rw [Table.get_insert hinserted, if_neg, hstored]
      rintro rfl
      rw [(Table.insert_eq_some hinserted).1] at hstored
      cases hstored
    refine ⟨⟨?_, ?_, fun mapping hmapping => ?_⟩, hkept⟩
    · intro other hother
      change other ∈ bundles.rows at hother
      rw [hrows] at hother
      rcases List.mem_append.mp hother with hold | hnew
      · exact hdb.named other hold
      · obtain ⟨hpayload, hid, _⟩ := bundleValues_ok hrow
        rw [List.mem_singleton.mp hnew, hpayload]
        exact hid
    · change (bundles.rows.map (·.bundleHash)).Nodup
      rw [hrows, List.map_append, List.map_singleton]
      exact List.nodup_append.mpr ⟨hdb.hashes, List.nodup_singleton _, fun a ha b hb hab => by
        cases List.mem_singleton.mp hb
        exact hfresh (hab ▸ ha)⟩
    · obtain ⟨stored, hstored⟩ := hdb.mapped mapping hmapping
      exact ⟨stored, hkept _ _ hstored⟩

/-- A bundle under the id or the hash of a stored one is that bundle or is refused. -/
theorem insertOrGet_stored (hdb : BundlesSound db) {stored : ContentKnowledgeBundleRow}
    (hrow : bundleValues bundle now = .ok row)
    (hget : db.bundles.get row.bundleId = some stored) :
    insertOrGetImmutable bundle now db.bundles =
      if stored.bundleHash = row.bundleHash ∧ (Json.obj stored.payload).same (.obj bundle) = true then
        .ok (db.bundles, stored.payload)
      else .error (.valueError "immutable bundle id collision") := by
  have hinsert : insertIgnoreConflict row db.bundles = none := by
    rw [insertIgnoreConflict]
    split
    · rfl
    · exact Table.insert_eq_none.mpr (by rw [hget]; nofun)
  obtain ⟨found, hfound⟩ := insertIgnore_none hinsert
  have hmem := List.mem_of_find?_eq_some hfound
  obtain ⟨_, hid, _⟩ := bundleValues_ok hrow
  rw [insertOrGetImmutable, hrow, ok_bind]
  simp only [hinsert, hfound]
  -- What the query finds is the row under the id, if either of them agrees with the bundle.
  have hfoundAgrees (h : found.bundleHash = row.bundleHash ∧ (Json.obj found.payload).same (.obj bundle) = true) :
      found = stored := by
    have hname := Json.lookup_text_of_same h.2 (hdb.named found hmem)
    rw [hid] at hname
    have hids : row.bundleId = found.bundleId := Json.str.inj (Option.some.inj hname)
    have hfoundGet := Table.get_of_mem hmem
    rw [← hids, hget] at hfoundGet
    exact (Option.some.inj hfoundGet).symm
  have hstoredAgrees (h : stored.bundleHash = row.bundleHash) : found = stored := by
    have hshares := List.find?_some hfound
    rw [sharesKey, Bool.or_eq_true, beq_iff_eq, beq_iff_eq] at hshares
    rcases hshares with hids | hhash
    · have hfoundGet := Table.get_of_mem hmem
      rw [hids, hget] at hfoundGet
      exact (Option.some.inj hfoundGet).symm
    · exact List.inj_on_of_nodup_map hdb.hashes hmem (Table.mem_of_get hget) (hhash.trans h.symm)
  by_cases hagrees : stored.bundleHash = row.bundleHash ∧ (Json.obj stored.payload).same (.obj bundle) = true
  · rw [hstoredAgrees hagrees.1, if_neg, if_pos hagrees]
    · rfl
    · exact not_or.mpr ⟨not_not_intro hagrees.1, by rw [hagrees.2]; decide⟩
  · have hfound : ¬ (found.bundleHash = row.bundleHash ∧ (Json.obj found.payload).same (.obj bundle) = true) :=
      fun h => hagrees (hfoundAgrees h ▸ h)
    rw [if_pos, if_neg hagrees]
    rw [not_and_or] at hfound
    exact hfound.imp_right fun h => Bool.eq_false_iff.mpr h

end Bundles

section Store
variable {digest : Json → String} {db : BundleDb} {call : BundleCall}

/-- Rows stay as they are. -/
structure RowsKept (db db' : BundleDb) : Prop where
  bundles : ∀ id row, db.bundles.get id = some row → db'.bundles.get id = some row
  mappings : ∀ keyHash mapping, db.mappings.get keyHash = some mapping → db'.mappings.get keyHash = some mapping

theorem RowsKept.refl (db : BundleDb) : RowsKept db db := ⟨fun _ _ h => h, fun _ _ h => h⟩

theorem RowsKept.trans {db₁ db₂ db₃ : BundleDb} (h : RowsKept db₁ db₂) (h' : RowsKept db₂ db₃) : RowsKept db₁ db₃ :=
  ⟨fun id row hrow => h'.bundles id row (h.bundles id row hrow),
    fun key mapping hmapping => h'.mappings key mapping (h.mappings key mapping hmapping)⟩

/-- The bundle of a key, and the request it is bound to. -/
def Bound (keyHash requestHash : String) (payload : BundlePayload) (db : BundleDb) : Prop :=
  ∃ mapping row, db.mappings.get keyHash = some mapping ∧ mapping.idempotencyRequestHash = requestHash ∧
    db.bundles.get mapping.bundleId = some row ∧ row.payload = payload

theorem resolve_ok {mapping : ContentKnowledgeBundleIdempotencyRow} {requestHash : String} {bundles : KnowledgeBundleTable}
    {payload : BundlePayload} : resolveIdempotent mapping requestHash bundles = .ok payload ↔
      mapping.idempotencyRequestHash = requestHash ∧
        ∃ row, bundles.get mapping.bundleId = some row ∧ row.payload = payload := by
  rw [resolveIdempotent]
  by_cases hhash : mapping.idempotencyRequestHash = requestHash
  · rw [if_neg (not_not_intro hhash), and_iff_right hhash]
    cases bundles.get mapping.bundleId with
    | none => exact iff_of_false nofun fun h => by obtain ⟨_, h, _⟩ := h; cases h
    | some row => exact ⟨fun h => ⟨row, rfl, Except.ok.inj h⟩, fun h => by obtain ⟨_, h, rfl⟩ := h; cases h; rfl⟩
  · rw [if_pos hhash]
    exact iff_of_false nofun fun h => hhash h.1

/-- A key that is free is bound to the bundle that is returned. -/
theorem bindKey_ok (hdb : BundlesSound db) {keyHash requestHash : String} (hfree : db.mappings.get keyHash = none)
    {bundle result : BundlePayload} {now : Time} {db' : BundleDb}
    (h : bindKey keyHash requestHash bundle now db = .ok (db', result)) :
    BundlesSound db' ∧ RowsKept db db' ∧ Bound keyHash requestHash result db' := by
  rw [bindKey] at h
  obtain ⟨⟨bundles, found⟩, hinserted, h⟩ := bind_eq_ok.mp h
  obtain ⟨row, stored, hrow, hget, hpayload, _, _, hbundles⟩ := insertOrGet_ok hdb hinserted
  obtain ⟨hsound, hkept⟩ := hdb.inserted hrow hbundles
  obtain ⟨bundleId, hid, h⟩ := bind_eq_ok.mp h
  have hname := hsound.named stored (Table.mem_of_get hget)
  rw [hpayload, textColumn_ok.mp hid, Table.get_key hget] at hname
  obtain rfl : bundleId = row.bundleId := Json.str.inj (Option.some.inj hname)
  have hstored : (bundles.get row.bundleId).isNone = false := by rw [hget]; rfl
  cases hinsert : db.mappings.insert ⟨keyHash, requestHash, row.bundleId, now⟩ with
  | none => exact absurd hfree (Table.insert_eq_none.mp hinsert)
  | some mappings =>
    simp only [insertMapping, hstored, hinsert, Bool.false_eq_true, if_false, Option.map_some] at h
    cases h
    have hmappings := Table.get_insert hinsert
    refine ⟨⟨hsound.named, hsound.hashes, fun mapping hmapping => ?_⟩, ⟨hkept, fun key mapping hmapping => ?_⟩, ?_⟩
    · change mapping ∈ mappings.rows at hmapping
      rw [(Table.insert_eq_some hinsert).2] at hmapping
      rcases List.mem_append.mp hmapping with hold | hnew
      · exact hsound.mapped mapping hold
      · rw [List.mem_singleton.mp hnew]
        exact ⟨stored, hget⟩
    · rw [hmappings, if_neg, hmapping]
      rintro rfl
      rw [hfree] at hmapping
      cases hmapping
    · exact ⟨_, stored, (hmappings keyHash).trans (if_pos rfl), rfl, hget, hpayload⟩

/-- What an accepted call leaves behind: its key is bound, or its bundle is stored. -/
def Accepted (digest : Json → String) (call : BundleCall) (result : BundlePayload) (db : BundleDb) : Prop :=
  match call.idempotencyKey with
  | some key => call.idempotencyRequestHash.getD "" ≠ "" ∧
      Bound (idempotencyKeyHash digest key) (call.idempotencyRequestHash.getD "") result db
  | none => ∃ row stored, bundleValues call.bundle call.now = .ok row ∧ db.bundles.get row.bundleId = some stored ∧
      stored.payload = result ∧ stored.bundleHash = row.bundleHash ∧ (Json.obj result).same (.obj call.bundle) = true

theorem insertBundle_ok (hdb : BundlesSound db) {db' : BundleDb} {result : BundlePayload}
    (h : insertBundle digest call db = .ok (db', result)) :
    BundlesSound db' ∧ RowsKept db db' ∧ Accepted digest call result db' := by
  rw [insertBundle] at h
  rw [Accepted]
  cases hkey : call.idempotencyKey with
  | none =>
    simp only [hkey] at h
    cases hinserted : insertOrGetImmutable call.bundle call.now db.bundles with
    | error e =>
      rw [hinserted] at h
      cases h
    | ok found =>
      obtain ⟨bundles, payload⟩ := found
      rw [hinserted] at h
      cases h
      obtain ⟨row, stored, hrow, hget, hpayload, hhash, hsame, hbundles⟩ := insertOrGet_ok hdb hinserted
      obtain ⟨hsound, hkept⟩ := hdb.inserted hrow hbundles
      exact ⟨hsound, ⟨hkept, fun _ _ h => h⟩, row, stored, hrow, hget, hpayload, hhash, hsame⟩
  | some key =>
    simp only [hkey] at h
    split at h
    · cases h
    · rename_i hhash
      rw [insertIdempotent] at h
      cases hmapping : db.mappings.get (idempotencyKeyHash digest key) with
      | none =>
        rw [hmapping] at h
        obtain ⟨hsound, hkept, hbound⟩ := bindKey_ok hdb hmapping h
        exact ⟨hsound, hkept, hhash, hbound⟩
      | some existing =>
        rw [hmapping] at h
        dsimp only at h
        cases hresolved : resolveIdempotent existing (call.idempotencyRequestHash.getD "") db.bundles with
        | error e =>
          rw [hresolved] at h
          cases h
        | ok payload =>
          rw [hresolved] at h
          cases h
          obtain ⟨hrequest, row, hrow, hpayload⟩ := resolve_ok.mp hresolved
          exact ⟨hdb, .refl db, hhash, existing, row, hmapping, hrequest, hrow, hpayload⟩

theorem Accepted.kept {db' : BundleDb} (hkept : RowsKept db db') {result : BundlePayload}
    (h : Accepted digest call result db) :
    Accepted digest call result db' := by
  rw [Accepted] at h ⊢
  cases hkey : call.idempotencyKey with
  | none =>
    rw [hkey] at h
    obtain ⟨row, stored, hrow, hget, hrest⟩ := h
    exact ⟨row, stored, hrow, hkept.bundles _ _ hget, hrest⟩
  | some key =>
    rw [hkey] at h
    obtain ⟨hhash, mapping, row, hmapping, hrequest, hrow, hpayload⟩ := h
    exact ⟨hhash, mapping, row, hkept.mappings _ _ hmapping, hrequest, hkept.bundles _ _ hrow, hpayload⟩

/-- A call again: with the same key and request hash, or without a key the same bundle. -/
def Repeats (call again : BundleCall) : Prop :=
  again.idempotencyKey = call.idempotencyKey ∧
    if call.idempotencyKey.isSome then again.idempotencyRequestHash = call.idempotencyRequestHash
    else again.bundle = call.bundle

theorem bundleValues_later {bundle : BundlePayload} {now : Time} {row : ContentKnowledgeBundleRow}
    (h : bundleValues bundle now = .ok row) (later : Time) :
    bundleValues bundle later = .ok { row with createdAt := later } := by
  rw [bundleValues] at h ⊢
  obtain ⟨bundleId, hid, h⟩ := bind_eq_ok.mp h
  obtain ⟨bundleHash, hhash, h⟩ := bind_eq_ok.mp h
  obtain ⟨snapshotId, hsnapshot, h⟩ := bind_eq_ok.mp h
  obtain ⟨requestHash, hrequest, h⟩ := bind_eq_ok.mp h
  obtain ⟨contract, hcontract, h⟩ := bind_eq_ok.mp h
  obtain ⟨producer, hproducer, h⟩ := bind_eq_ok.mp h
  obtain ⟨commit, hcommit, h⟩ := bind_eq_ok.mp h
  obtain ⟨pipeline, hpipeline, h⟩ := bind_eq_ok.mp h
  cases h
  rw [hid, hhash, hsnapshot, hrequest, hcontract, hproducer, ok_bind, ok_bind, ok_bind, ok_bind, ok_bind, ok_bind, hcommit,
    hpipeline]
  rfl

/-- A repeated call returns the same bundle and writes nothing. -/
theorem Accepted.again (hdb : BundlesSound db) {result : BundlePayload} (h : Accepted digest call result db)
    {again : BundleCall}
    (hagain : Repeats call again) : insertBundle digest again db = .ok (db, result) := by
  obtain ⟨hkeys, hrest⟩ := hagain
  rw [Accepted] at h
  rw [insertBundle, hkeys]
  cases hkey : call.idempotencyKey with
  | none =>
    rw [hkey] at h hrest
    obtain ⟨row, stored, hrow, hget, hpayload, hhash, hsame⟩ := h
    have hbundle : again.bundle = call.bundle := hrest
    have hlater := bundleValues_later hrow again.now
    dsimp only
    rw [hbundle, insertOrGet_stored hdb hlater hget, if_pos ⟨hhash, hpayload ▸ hsame⟩, hpayload]
    rfl
  | some key =>
    rw [hkey] at h hrest
    obtain ⟨hhash, mapping, row, hmapping, hrequest, hrow, hpayload⟩ := h
    have hrequests : again.idempotencyRequestHash = call.idempotencyRequestHash := hrest
    have hresolved := resolve_ok.mpr ⟨hrequest, row, hrow, hpayload⟩
    dsimp only
    rw [hrequests, if_neg hhash, insertIdempotent, hmapping]
    dsimp only
    rw [hresolved]
    rfl

/-- What a call does to the rows, whatever comes of it. -/
theorem bundleStep (hdb : BundlesSound db) (call : BundleCall) :
    BundlesSound ((bundleStore digest).step db call) ∧ RowsKept db ((bundleStore digest).step db call) := by
  change BundlesSound (settle db (insertBundle digest call db)).1 ∧ RowsKept db (settle db (insertBundle digest call db)).1
  cases hinserted : insertBundle digest call db with
  | error e => exact ⟨hdb, .refl db⟩
  | ok result =>
    obtain ⟨hsound, hkept, _⟩ := insertBundle_ok hdb hinserted
    exact ⟨hsound, hkept⟩

variable (digest) in
theorem bundlesSound_run (hdb : BundlesSound db) (calls : List BundleCall) :
    BundlesSound ((bundleStore digest).run db calls) :=
  (bundleStore digest).run_invariant (I := BundlesSound) (fun _ call h => (bundleStep h call).1) hdb calls

variable (digest) in
theorem rowsKept_run (hdb : BundlesSound db) (calls : List BundleCall) : RowsKept db ((bundleStore digest).run db calls) :=
  (bundleStore digest).run_related (I := BundlesSound) RowsKept.refl (fun _ _ _ h h' => h.trans h')
    (fun _ call h => (bundleStep h call).1) (fun _ call h => (bundleStep h call).2) hdb calls

/-- A call that uses a bound key and its request hash. -/
def UsesBinding (digest : Json → String) (db : BundleDb) (call : BundleCall) : Prop :=
  ∃ key mapping, call.idempotencyKey = some key ∧ db.mappings.get (idempotencyKeyHash digest key) = some mapping ∧
    call.idempotencyRequestHash = some mapping.idempotencyRequestHash

/-- How the keys and ids of a store are bound. -/
structure BundleBinding (digest : Json → String) (db : BundleDb) : Prop where
  bound : ∀ key mapping, db.mappings.get (idempotencyKeyHash digest key) = some mapping →
    ∃ row, db.bundles.get mapping.bundleId = some row ∧ ∀ more : List BundleCall,
      ((bundleStore digest).run db more).mappings.get (idempotencyKeyHash digest key) = some mapping ∧
        ((bundleStore digest).run db more).bundles.get mapping.bundleId = some row
  repeated : ∀ call result, (bundleStore digest).outcome db call = .ok result →
    ∀ (more : List BundleCall) (again : BundleCall),
    Repeats call again → (bundleStore digest).exec ((bundleStore digest).run db (call :: more)) again =
      ((bundleStore digest).run db (call :: more), .ok result)
  reused : ∀ key mapping (call : BundleCall), db.mappings.get (idempotencyKeyHash digest key) = some mapping →
    call.idempotencyKey = some key → call.idempotencyRequestHash ≠ some mapping.idempotencyRequestHash →
      ∃ e, (bundleStore digest).outcome db call = .error e
  changed : ∀ (call : BundleCall) id row, Json.lookup call.bundle "bundle_id" = some (.str id) →
    db.bundles.get id = some row →
    (Json.obj row.payload).same (.obj call.bundle) = false → ¬ UsesBinding digest db call →
      ∃ e, (bundleStore digest).outcome db call = .error e
  refused : ∀ (call : BundleCall) e, (bundleStore digest).outcome db call = .error e →
    (bundleStore digest).step db call = db

theorem outcome_error {e : BundleStoreError} (h : insertBundle digest call db = .error e) :
    (bundleStore digest).outcome db call = .error e := by
  change (settle db (insertBundle digest call db)).2 = _
  rw [h]
  rfl

theorem insertOrGet_changed (hdb : BundlesSound db) {bundle : BundlePayload} (now : Time) {id : String}
    {row : ContentKnowledgeBundleRow}
    (hid : Json.lookup bundle "bundle_id" = some (.str id)) (hget : db.bundles.get id = some row)
    (hchanged : (Json.obj row.payload).same (.obj bundle) = false) :
    ∃ e, insertOrGetImmutable bundle now db.bundles = .error e := by
  cases hvalues : bundleValues bundle now with
  | error e => exact ⟨e, by rw [insertOrGetImmutable, hvalues]; rfl⟩
  | ok values =>
    have hname := (bundleValues_ok hvalues).2.1
    rw [hid] at hname
    obtain rfl : id = values.bundleId := Json.str.inj (Option.some.inj hname)
    refine ⟨_, (insertOrGet_stored hdb hvalues hget).trans (if_neg ?_)⟩
    rw [hchanged]
    exact fun h => Bool.false_ne_true h.2

/-- Another request under a bound key is refused. -/
theorem bound_refused {key : String} {mapping : ContentKnowledgeBundleIdempotencyRow}
    (hmapping : db.mappings.get (idempotencyKeyHash digest key) = some mapping) (hkey : call.idempotencyKey = some key)
    (hhash : call.idempotencyRequestHash ≠ some mapping.idempotencyRequestHash) :
    ∃ e, insertBundle digest call db = .error e := by
  rw [insertBundle, hkey]
  dsimp only
  split
  · exact ⟨_, rfl⟩
  · rename_i hgiven
    have hother : mapping.idempotencyRequestHash ≠ call.idempotencyRequestHash.getD "" := by
      intro hsame
      refine hhash ?_
      cases hrequest : call.idempotencyRequestHash with
      | none =>
        rw [hrequest] at hgiven
        exact absurd rfl hgiven
      | some given => rw [hsame, hrequest, Option.getD_some]
    refine ⟨.idempotencyConflict, ?_⟩
    rw [insertIdempotent, hmapping]
    dsimp only
    rw [resolveIdempotent, if_pos hother]
    rfl

/-- Another payload under a stored id is refused, unless a bound key answers for it. -/
theorem changed_refused (hdb : BundlesSound db) {id : String} {row : ContentKnowledgeBundleRow}
    (hid : Json.lookup call.bundle "bundle_id" = some (.str id)) (hget : db.bundles.get id = some row)
    (hchanged : (Json.obj row.payload).same (.obj call.bundle) = false) (hunbound : ¬ UsesBinding digest db call) :
    ∃ e, insertBundle digest call db = .error e := by
  obtain ⟨e, he⟩ := insertOrGet_changed hdb call.now hid hget hchanged
  cases hkey : call.idempotencyKey with
  | none =>
    refine ⟨e, ?_⟩
    rw [insertBundle, hkey]
    dsimp only
    rw [he]
    rfl
  | some key =>
    cases hmapping : db.mappings.get (idempotencyKeyHash digest key) with
    | some mapping => exact bound_refused hmapping hkey fun hhash => hunbound ⟨key, mapping, hkey, hmapping, hhash⟩
    | none =>
      rw [insertBundle, hkey]
      dsimp only
      split
      · exact ⟨_, rfl⟩
      · refine ⟨e, ?_⟩
        rw [insertIdempotent, hmapping]
        dsimp only
        rw [bindKey, he]
        rfl

/-- Over every run of inserts: a key stays bound to its request and its bundle, an accepted
request returns its bundle again, another request under a bound key is refused, and so is
another payload under a stored id unless a bound key and its request hash come with it;
what is refused changes nothing. -/
theorem bundle_binding (digest : Json → String) (calls : List BundleCall) :
    BundleBinding digest ((bundleStore digest).run noBundles calls) := by
  have hnone : BundlesSound noBundles := ⟨List.forall_mem_nil _, List.nodup_nil, List.forall_mem_nil _⟩
  have hdb := bundlesSound_run digest hnone calls
  revert hdb
  generalize (bundleStore digest).run noBundles calls = db
  intro hdb
  refine ⟨fun key mapping hmapping => ?_, fun call result houtcome more again hagain => ?_,
    fun key mapping call hmapping hkey hhash => ?_, fun call id row hid hget hchanged hunbound => ?_,
      fun call e houtcome => ?_⟩
  · obtain ⟨row, hrow⟩ := hdb.mapped mapping (Table.mem_of_get hmapping)
    refine ⟨row, hrow, fun more => ?_⟩
    have hkept := rowsKept_run digest hdb more
    exact ⟨hkept.mappings _ _ hmapping, hkept.bundles _ _ hrow⟩
  · obtain ⟨hsound, _, haccepted⟩ := insertBundle_ok hdb (settle_committed houtcome)
    have hlater := haccepted.kept (rowsKept_run digest hsound more)
    have hinserted := hlater.again (bundlesSound_run digest hsound more) hagain
    exact congrArg (settle _) hinserted
  · obtain ⟨e, he⟩ := bound_refused hmapping hkey hhash
    exact ⟨e, outcome_error he⟩
  · obtain ⟨e, he⟩ := changed_refused hdb hid hget hchanged hunbound
    exact ⟨e, outcome_error he⟩
  · change (settle db (insertBundle digest call db)).2 = .error e at houtcome
    change (settle db (insertBundle digest call db)).1 = db
    cases hinserted : insertBundle digest call db with
    | error e' => rfl
    | ok result =>
      rw [hinserted] at houtcome
      cases houtcome

end Store

/-- Another payload under a stored id is refused, whatever comes with it. -/
def RefusesChanged (digest : Json → String) (db : BundleDb) : Prop :=
  ∀ (call : BundleCall) id row, Json.lookup call.bundle "bundle_id" = some (.str id) → db.bundles.get id = some row →
    (Json.obj row.payload).same (.obj call.bundle) = false → ∃ e, (bundleStore digest).outcome db call = .error e

/-- Two bundles under one id. -/
def bundleOf (bundleHash : String) : BundlePayload :=
  [("bundle_id", .str "kb-1"), ("bundle_hash", .str bundleHash), ("content_snapshot_id", .str "snap-1"),
    ("request_hash", .str "r1"), ("contract", .str "content-knowledge-bundle.v2"),
    ("producer", .obj [("git_commit", .str "c1"), ("pipeline_version", .str "1.0.0")])]

def keyedCall (bundleHash : String) : BundleCall :=
  { bundle := bundleOf bundleHash, idempotencyKey := some "key-1", idempotencyRequestHash := some "r1" }

def keyDigest : Json → String := fun _ => "30e79d28d4e4bdd8e9e379fb805b61fa0a13deb837f7a2d1a85e29f9a48b0282"

/-- With the key and the request hash of the first bundle the second is answered by the first. -/
theorem changed_payload_answered :
    ¬ RefusesChanged keyDigest ((bundleStore keyDigest).run noBundles [keyedCall "sha256:1"]) := by
  intro h
  have hrefused := h (keyedCall "sha256:2") "kb-1"
    ⟨"kb-1", "sha256:1", "snap-1", "r1", "content-knowledge-bundle.v2", bundleOf "sha256:1", "c1", "1.0.0", 0⟩
    (by decide) (by decide) (by decide)
  have hanswered : (bundleStore keyDigest).outcome ((bundleStore keyDigest).run noBundles [keyedCall "sha256:1"])
      (keyedCall "sha256:2") = .ok (bundleOf "sha256:1") := by decide
  rw [hanswered] at hrefused
  obtain ⟨e, he⟩ := hrefused
  cases he

end StockContent.Bundle
