import StockContent.Publication.PublicationUnitOfWork

/-! The sealed projection of a publication and its comparison with a retry: signals under
their ids, whatever their order, as long as every id occurs once. -/
namespace StockContent.Publication
open Storage Procedure

namespace KeyedSet
variable {texts : Signals.OutboxTexts}

def entry (texts : Signals.OutboxTexts) (payload : Payload) : String × Json :=
  (Signals.signalIdOf texts payload, .obj payload)

theorem keyed_step {keyed keyed' : Payload} {payload : Payload} :
    (do
      let signalId := Signals.signalIdOf texts payload
      require (.valueError "sealed signal requires signal_id") (signalId ≠ "")
      require (.valueError ("duplicate sealed signal_id: " ++ signalId)) (Json.lookup keyed signalId).isNone
      return keyed ++ [(signalId, .obj payload)] : Except PublicationError Payload) = .ok keyed' ↔
      Signals.signalIdOf texts payload ≠ "" ∧ Json.lookup keyed (Signals.signalIdOf texts payload) = none ∧
        keyed' = keyed ++ [entry texts payload] := by
  rw [then_eq_ok, then_eq_ok, require_eq_ok, require_eq_ok, decide_eq_true_iff, Option.isNone_iff_eq_none]
  refine and_congr_right fun _ => and_congr_right fun _ => ?_
  exact ⟨fun h => (Except.ok.inj h).symm, fun h => h ▸ rfl⟩

theorem lookup_eq_none {fields : Payload} {key : String} : Json.lookup fields key = none ↔ key ∉ fields.map Prod.fst := by
  induction fields with
  | nil => simp
  | cons f fields ih =>
    rw [Json.lookup_cons, List.map_cons, List.mem_cons, not_or, ← ih]
    by_cases hkey : f.1 = key
    · simp [hkey]
    · simp [hkey, Ne.symm hkey]

end KeyedSet

section Keyed
variable {texts : Signals.OutboxTexts} {signals others : List Payload} {keyed : Payload}
open KeyedSet

/-- The ids of signals that may be told apart by them. -/
def KeyedSignals (texts : Signals.OutboxTexts) (signals : List Payload) : Prop :=
  (∀ payload ∈ signals, Signals.signalIdOf texts payload ≠ "") ∧ (signals.map (Signals.signalIdOf texts)).Nodup

theorem keys_entry (texts : Signals.OutboxTexts) (signals : List Payload) :
    (signals.map (entry texts)).map Prod.fst = signals.map (Signals.signalIdOf texts) := by
  rw [List.map_map]
  rfl

theorem keyedSignals_concat {payload : Payload} : KeyedSignals texts (signals ++ [payload]) ↔
    KeyedSignals texts signals ∧ Signals.signalIdOf texts payload ≠ "" ∧
      Signals.signalIdOf texts payload ∉ signals.map (Signals.signalIdOf texts) := by
  rw [KeyedSignals, KeyedSignals, List.map_append, List.map_singleton, List.nodup_append]
  simp only [List.mem_append, List.mem_singleton, List.nodup_singleton]
  constructor
  · rintro ⟨hnamed, hnodup, _, hfresh⟩
    exact ⟨⟨fun p hp => hnamed p (.inl hp), hnodup⟩, hnamed payload (.inr rfl), fun hmem => hfresh _ hmem _ rfl rfl⟩
  · rintro ⟨⟨hnamed, hnodup⟩, hpayload, hfresh⟩
    refine ⟨fun p hp => hp.elim (hnamed p) fun he => he ▸ hpayload, hnodup, trivial, ?_⟩
    rintro a ha b rfl rfl
    exact hfresh ha

/-- The keyed set of signals exists when every signal has an id of its own. -/
theorem signalKeyedSet_ok : signalKeyedSet texts signals = .ok keyed ↔
    KeyedSignals texts signals ∧ keyed = signals.map (entry texts) := by
  induction signals using List.reverseRecOn generalizing keyed with
  | nil => exact ⟨fun h => ⟨⟨nofun, List.nodup_nil⟩, (Except.ok.inj h).symm⟩, fun h => h.2 ▸ rfl⟩
  | append_singleton signals payload ih =>
    rw [keyedSignals_concat, List.map_append, List.map_singleton, signalKeyedSet, List.foldlM_append, bind_eq_ok]
    constructor
    · rintro ⟨before, hbefore, hlast⟩
      obtain ⟨hkeyed, rfl⟩ := ih.mp hbefore
      obtain ⟨last, hlast, hdone⟩ := bind_eq_ok.mp hlast
      obtain ⟨hid, hfresh, rfl⟩ := keyed_step.mp hlast
      cases hdone
      rw [lookup_eq_none, keys_entry] at hfresh
      exact ⟨⟨hkeyed, hid, hfresh⟩, rfl⟩
    · rintro ⟨⟨hkeyed, hid, hfresh⟩, rfl⟩
      refine ⟨signals.map (entry texts), ih.mpr ⟨hkeyed, rfl⟩, bind_eq_ok.mpr ⟨_, keyed_step.mpr ⟨hid, ?_, rfl⟩, rfl⟩⟩
      rw [lookup_eq_none, keys_entry]
      exact hfresh

theorem KeyedSignals.perm (h : KeyedSignals texts signals) (hperm : others.Perm signals) : KeyedSignals texts others :=
  ⟨fun payload hmem => h.1 payload (hperm.subset hmem), (hperm.map _).nodup_iff.mpr h.2⟩

/-- Keyed sets of the same signals are equal, whatever the order. -/
theorem same_entries (h : KeyedSignals texts signals) (hperm : others.Perm signals) :
    (Json.obj (others.map (entry texts))).same (.obj (signals.map (entry texts))) = true := by
  refine Json.same_of_canonical (Json.canonical_obj_of_perm (hperm.map _) ?_)
  rw [keys_entry]
  exact (h.perm hperm).2

end Keyed

section Sealing
variable {hashes : PublicationHashes} {texts : Signals.OutboxTexts} {now : Time} {publicationRunId snapshotId : String}
  {sealedSignals after : SealedTable} {signals : List Payload}

/-- Under a free id a signal is stored as a new row. -/
theorem sealSignal_free {payload : Payload}
    (hget : sealedSignals.get (sealedRow hashes texts publicationRunId snapshotId payload now).sealedSignalId = none)
    (h : sealSignal hashes texts publicationRunId snapshotId now sealedSignals payload = .ok after) :
    sealedSignals.insert (sealedRow hashes texts publicationRunId snapshotId payload now) = some after := by
  rw [sealSignal] at h
  split at h
  · cases h
  · rw [hget] at h
    exact elim_eq_ok.mp h

theorem sealSignal_ok {payload : Payload}
    (h : sealSignal hashes texts publicationRunId snapshotId now sealedSignals payload = .ok after) :
    Signals.signalIdOf texts payload ≠ "" ∧ (after = sealedSignals ∨
      sealedSignals.insert (sealedRow hashes texts publicationRunId snapshotId payload now) = some after) := by
  have hsealed := h
  rw [sealSignal] at h
  split at h
  · cases h
  · rename_i hid
    refine ⟨hid, ?_⟩
    cases hget : sealedSignals.get (sealedRow hashes texts publicationRunId snapshotId payload now).sealedSignalId with
    | none => exact .inr (sealSignal_free hget hsealed)
    | some stored =>
      rw [hget] at h
      dsimp only at h
      split at h <;> cases h
      exact .inl rfl

/-- Whatever was sealed has an id. -/
theorem sealSignals_named (h : signals.foldlM (sealSignal hashes texts publicationRunId snapshotId now) sealedSignals = .ok after) :
    ∀ payload ∈ signals, Signals.signalIdOf texts payload ≠ "" := by
  induction signals generalizing sealedSignals with
  | nil => exact nofun
  | cons payload signals ih =>
    rw [List.foldlM_cons] at h
    obtain ⟨next, hnext, h⟩ := bind_eq_ok.mp h
    exact List.forall_mem_cons.mpr ⟨(sealSignal_ok hnext).1, ih h⟩

/-- Under ids that are free, sealing adds one row for every signal. -/
theorem sealSignals_rows (hfree : ∀ payload ∈ signals,
      sealedSignals.get (sealedSignalId hashes publicationRunId (Signals.signalIdOf texts payload)) = none)
    (hinj : ∀ payload ∈ signals, ∀ other ∈ signals,
      sealedSignalId hashes publicationRunId (Signals.signalIdOf texts payload) =
        sealedSignalId hashes publicationRunId (Signals.signalIdOf texts other) →
          Signals.signalIdOf texts payload = Signals.signalIdOf texts other)
    (hnodup : (signals.map (Signals.signalIdOf texts)).Nodup)
    (h : signals.foldlM (sealSignal hashes texts publicationRunId snapshotId now) sealedSignals = .ok after) :
    after.rows = sealedSignals.rows ++ signals.map fun payload => sealedRow hashes texts publicationRunId snapshotId payload now := by
  induction signals generalizing sealedSignals with
  | nil =>
    cases h
    exact (List.append_nil _).symm
  | cons payload signals ih =>
    rw [List.foldlM_cons] at h
    obtain ⟨next, hnext, h⟩ := bind_eq_ok.mp h
    have hinsert := sealSignal_free (hfree payload List.mem_cons_self) hnext
    obtain ⟨hfresh, hrest⟩ := List.nodup_cons.mp hnodup
    have hrows := ih ?_ ?_ hrest h
    · rw [hrows, (Table.insert_eq_some hinsert).2, List.append_assoc]
      rfl
    · intro other hother
      rw [Table.get_insert hinsert, if_neg]
      · exact hfree other (List.mem_cons_of_mem _ hother)
      · intro hsame
        have hid := hinj payload List.mem_cons_self other (List.mem_cons_of_mem _ hother) hsame
        exact hfresh (hid ▸ List.mem_map_of_mem hother)
    · exact fun p hp q hq => hinj p (List.mem_cons_of_mem _ hp) q (List.mem_cons_of_mem _ hq)

/-- The projection of a run lists exactly what was sealed for it. -/
theorem listSealed_perm (hforeign : ∀ row ∈ sealedSignals.rows, row.publicationRunId ≠ publicationRunId)
    (h : after.rows = sealedSignals.rows ++
      signals.map fun payload => sealedRow hashes texts publicationRunId snapshotId payload now) :
    (listSealedSignals publicationRunId after).Perm signals := by
  have hfilter : after.rows.filter (·.publicationRunId = publicationRunId) =
      signals.map fun payload => sealedRow hashes texts publicationRunId snapshotId payload now := by
    rw [h, List.filter_append, List.filter_eq_nil_iff.mpr, List.nil_append, List.filter_eq_self]
    · intro row hrow
      obtain ⟨payload, _, rfl⟩ := List.mem_map.mp hrow
      exact decide_eq_true rfl
    · exact fun row hrow => by simpa using hforeign row hrow
  have hlength : (signals.map fun payload => sealedRow hashes texts publicationRunId snapshotId payload now).length ≤
      after.rows.length := by
    rw [h, List.length_append]
    omega
  rw [listSealedSignals, Table.select, hfilter, List.take_of_length_le (by rw [List.length_insertionSort]; exact hlength)]
  have hsorted := (List.perm_insertionSort (fun a b : ContentSealedSignalRow => decide (a.signalId ≤ b.signalId) = true)
    (signals.map fun payload => sealedRow hashes texts publicationRunId snapshotId payload now)).map (·.payload)
  refine hsorted.trans (List.Perm.of_eq ?_)
  rw [List.map_map]
  exact List.map_id _

end Sealing
end StockContent.Publication
