import StockContent.Storage.Table

/-! Idempotent writes. A row is stored unless its key is taken, and the row under a taken
key has to agree with it; a batch goes through when every write agrees with what was
stored before the batch. -/
namespace StockContent.Storage

/-- A row to store, and which rows may stand in for it. -/
structure Write (R : Type) where
  row : R
  agrees : R → Bool

namespace Table
variable {R K : Type} {key : R → K} [DecidableEq K]

def ensure (t : Table key) (w : Write R) : Option (Table key) :=
  match t.get (key w.row) with
  | some q => if w.agrees q then some t else none
  | none => t.insert w.row

def ensureAll (t : Table key) : List (Write R) → Option (Table key)
  | [] => some t
  | w :: ws => (t.ensure w).bind (ensureAll · ws)

theorem ensure_eq_some {t u : Table key} {w : Write R} :
    t.ensure w = some u ↔ (∀ q, t.get (key w.row) = some q → w.agrees q = true) ∧ u = (t.insert w.row).getD t := by
  rw [ensure]
  cases hg : t.get (key w.row) with
  | some q =>
    have hi : t.insert w.row = none := insert_eq_none.mpr (by simp [hg])
    rw [hi, Option.getD_none]
    constructor
    · intro h
      dsimp only at h
      split at h <;> cases h
      exact ⟨fun q' hq => by cases hq; assumption, rfl⟩
    · rintro ⟨ha, rfl⟩
      simp [ha q rfl]
  | none =>
    cases hi : t.insert w.row with
    | some v =>
      rw [Option.getD_some]
      exact ⟨fun h => ⟨fun _ hq => (by cases hq), (Option.some.inj h).symm⟩, fun h => congrArg some h.2.symm⟩
    | none => exact absurd hg (insert_eq_none.mp hi)

theorem get_ensure {t u : Table key} {w : Write R} (h : t.ensure w = some u) (k : K) :
    u.get k = (t.get k).or (if key w.row = k then some w.row else none) := by
  rw [(ensure_eq_some.mp h).2, get_insert_getD]

theorem ensureAll_cons {t v : Table key} {w : Write R} {ws : List (Write R)} :
    t.ensureAll (w :: ws) = some v ↔ ∃ u, t.ensure w = some u ∧ u.ensureAll ws = some v := by
  simp [ensureAll, Option.bind_eq_some_iff]

/-- A batch adds rows of its own, keeps the others and leaves no key of it free. -/
theorem ensureAll_evolves {t u : Table key} {ws : List (Write R)} (h : t.ensureAll ws = some u) :
    Evolves (fun r => ∃ w ∈ ws, r = w.row) Eq t u ∧ ∀ w ∈ ws, ∃ q, u.get (key w.row) = some q := by
  induction ws generalizing t with
  | nil =>
    cases h
    exact ⟨.refl (fun _ => rfl) _, fun _ hw => by cases hw⟩
  | cons w ws ih =>
    obtain ⟨v, hv, h⟩ := ensureAll_cons.mp h
    obtain ⟨hev, hall⟩ := ih h
    have hfirst : Evolves (fun r => ∃ w' ∈ w :: ws, r = w'.row) Eq t v := by
      rw [(ensure_eq_some.mp hv).2]
      exact .insert_getD (fun _ => rfl) ⟨w, List.mem_cons_self, rfl⟩
    have hrest : Evolves (fun r => ∃ w' ∈ w :: ws, r = w'.row) Eq v u :=
      hev.mono (fun _ h => h.imp fun _ => And.imp_left (List.mem_cons_of_mem w)) (fun _ _ he => he)
    refine ⟨hfirst.trans hrest (fun _ _ _ => Eq.trans) (fun _ _ hf he => he ▸ hf), fun w' hw => ?_⟩
    rcases List.mem_cons.mp hw with rfl | hw
    · have hstored : ∃ q, v.get (key w'.row) = some q := by
        rw [get_ensure hv]
        cases t.get (key w'.row) <;> simp
      obtain ⟨q, hq⟩ := hstored
      obtain ⟨q', hq', _⟩ := hev.old _ q hq
      exact ⟨q', hq'⟩
    · exact hall w' hw

/-- Writes of one batch under one key have to agree with each other. -/
def Coherent (key : R → K) (ws : List (Write R)) : Prop :=
  ∀ w ∈ ws, ∀ w' ∈ ws, key w.row = key w'.row → w'.agrees w.row = true

theorem ensureAll_isSome {t : Table key} {ws : List (Write R)} (hc : Coherent key ws) :
    (∃ u, t.ensureAll ws = some u) ↔ ∀ w ∈ ws, ∀ q, t.get (key w.row) = some q → w.agrees q = true := by
  induction ws generalizing t with
  | nil => simp [ensureAll]
  | cons w ws ih =>
    have hrest : Coherent key ws := fun a ha b hb =>
      hc a (List.mem_cons_of_mem w ha) b (List.mem_cons_of_mem w hb)
    constructor
    · rintro ⟨u, hu⟩ w' hw q hq
      obtain ⟨v, hv, hu⟩ := ensureAll_cons.mp hu
      rcases List.mem_cons.mp hw with rfl | hw
      · exact (ensure_eq_some.mp hv).1 q hq
      · refine (ih hrest).mp ⟨u, hu⟩ w' hw q ?_
        rw [get_ensure hv, hq]
        rfl
    · intro h
      obtain ⟨v, hv⟩ : ∃ v, t.ensure w = some v := ⟨_, ensure_eq_some.mpr ⟨h w List.mem_cons_self, rfl⟩⟩
      have hnext : ∀ w' ∈ ws, ∀ q, v.get (key w'.row) = some q → w'.agrees q = true := by
        intro w' hw q hq
        rw [get_ensure hv] at hq
        cases hg : t.get (key w'.row) with
        | some q' =>
          rw [hg] at hq
          cases hq
          exact h w' (List.mem_cons_of_mem w hw) q hg
        | none =>
          rw [hg, Option.none_or] at hq
          split at hq
          · cases hq
            exact hc w List.mem_cons_self w' (List.mem_cons_of_mem w hw) ‹_›
          · cases hq
      obtain ⟨u, hu⟩ := (ih hrest).mpr hnext
      exact ⟨u, ensureAll_cons.mpr ⟨v, hv, hu⟩⟩

/-- After a batch, every key of it holds a row that agrees with the write. -/
theorem ensureAll_agrees {t u : Table key} {ws : List (Write R)} (hc : Coherent key ws)
    (h : t.ensureAll ws = some u) : ∀ w ∈ ws, ∃ q, u.get (key w.row) = some q ∧ w.agrees q = true := by
  intro w hw
  obtain ⟨hev, hall⟩ := ensureAll_evolves h
  obtain ⟨q, hq⟩ := hall w hw
  refine ⟨q, hq, ?_⟩
  cases hg : t.get (key w.row) with
  | some q' =>
    obtain ⟨_, hq', rfl⟩ := hev.old _ q' hg
    rw [hq] at hq'
    cases hq'
    exact (ensureAll_isSome hc).mp ⟨u, h⟩ w hw q hg
  | none =>
    obtain ⟨w', hw', rfl⟩ := hev.new _ q hg hq
    exact hc w' hw' w hw (get_key hq)

end Table
end StockContent.Storage
