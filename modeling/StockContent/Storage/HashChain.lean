import Mathlib.Data.List.Nodup
import Mathlib.Data.List.Perm.Basic

/-! Records that name their predecessor by its digest. The order of such a chain is
in the records, so a store may return them in any order. -/
namespace StockContent.Storage

structure Links (R D : Type) where
  digest : R → D
  previous : R → Option D

namespace Links
variable {R D E : Type} (links : Links R D)

/-- Every record names the one before it, the first names `start`. -/
def Linked (start : Option D) : List R → Prop
  | [] => True
  | r :: rs => links.previous r = start ∧ Linked (some (links.digest r)) rs

/-- What the next record of a chain has to name. -/
def tip (start : Option D) (rs : List R) : Option D :=
  rs.foldl (fun _ r => some (links.digest r)) start

@[simp] theorem tip_nil (start : Option D) : links.tip start [] = start := rfl
@[simp] theorem tip_append (start : Option D) (rs ss : List R) :
    links.tip start (rs ++ ss) = links.tip (links.tip start rs) ss := List.foldl_append
@[simp] theorem tip_singleton (start : Option D) (r : R) : links.tip start [r] = some (links.digest r) := rfl

theorem tip_eq_getLast? (rs : List R) : links.tip none rs = rs.getLast?.map links.digest := by
  rcases List.eq_nil_or_concat rs with rfl | ⟨qs, r, rfl⟩
  · rfl
  · simp

@[simp] theorem linked_nil (start : Option D) : links.Linked start [] := trivial

@[simp] theorem linked_append (start : Option D) (rs ss : List R) :
    links.Linked start (rs ++ ss) ↔ links.Linked start rs ∧ links.Linked (links.tip start rs) ss := by
  induction rs generalizing start with
  | nil => simp
  | cons r rs ih => simp [Linked, tip, ih, and_assoc]

@[simp] theorem linked_singleton (start : Option D) (r : R) :
    links.Linked start [r] ↔ links.previous r = start := by simp [Linked]

variable {links}

/-- The first record names the start, every other one the record before it. -/
theorem linked_iff_isChain {start : Option D} {rs : List R} :
    links.Linked start rs ↔ (∀ r ∈ rs.head?, links.previous r = start) ∧
      rs.IsChain fun before after => links.previous after = some (links.digest before) := by
  induction rs generalizing start with
  | nil => simp
  | cons r rs ih =>
    rw [Linked, ih]
    cases rs with
    | nil => simp
    | cons s rs => simp [List.isChain_cons_cons]

/-- A chain names its start and then its own digests, the last of them still to be named. -/
theorem Linked.previous_append_tip {start : Option D} {rs : List R} (h : links.Linked start rs) :
    rs.map links.previous ++ [links.tip start rs] = start :: rs.map fun r => some (links.digest r) := by
  induction rs generalizing start with
  | nil => rfl
  | cons r rs ih =>
    obtain ⟨rfl, hrs⟩ := h
    exact congrArg (_ :: ·) (ih hrs)

/-- Distinct digests give every record at most one successor, and the last one none. -/
theorem Linked.previous_nodup {rs : List R} (h : links.Linked none rs) (hd : (rs.map links.digest).Nodup) :
    (rs.map links.previous).Nodup ∧ links.tip none rs ∉ rs.map links.previous := by
  have hall : (rs.map links.previous ++ [links.tip none rs]).Nodup := by
    rw [h.previous_append_tip]
    refine List.nodup_cons.mpr ⟨by simp, ?_⟩
    have hmap : (rs.map fun r => some (links.digest r)) = (rs.map links.digest).map some := by simp
    rw [hmap]
    exact hd.map fun _ _ he => Option.some.inj he
  obtain ⟨hn, _, hdisjoint⟩ := List.nodup_append.mp hall
  exact ⟨hn, fun hm => hdisjoint _ hm _ (List.mem_singleton.mpr rfl) rfl⟩

/-- A chain among the records of a longer chain is a prefix of it. -/
theorem Linked.prefix {start : Option D} {rs ss more : List R} (hr : links.Linked start rs)
    (hs : links.Linked start ss) (hp : (rs ++ more).Perm ss) (hn : (ss.map links.previous).Nodup) :
    ∃ rest, ss = rs ++ rest ∧ more.Perm rest := by
  induction rs generalizing start ss with
  | nil => exact ⟨ss, rfl, hp⟩
  | cons r rs ih =>
    cases ss with
    | nil => simp at hp
    | cons s ss =>
      have hrs : r = s := List.inj_on_of_nodup_map hn (hp.mem_iff.mp List.mem_cons_self) List.mem_cons_self
        (hr.1.trans hs.1.symm)
      subst hrs
      obtain ⟨rest, rfl, hrest⟩ := ih hr.2 hs.2 hp.cons_inv (List.nodup_cons.mp hn).2
      exact ⟨rest, rfl, hrest⟩

variable [DecidableEq D] (links)

/-- Take the successor of `start` out of the records, then its successor, and so on,
checking every record on the way. -/
def follow (check : R → Except E Unit) (broken : E) : Nat → Option D → List R → Except E (List R)
  | _, _, [] => .ok []
  | 0, _, _ :: _ => .error broken
  | n + 1, start, pending =>
    match pending.find? (links.previous · = start) with
    | none => .error broken
    | some r => do
      check r
      let rest ← follow check broken n (some (links.digest r)) (pending.filter (links.previous · ≠ start))
      return r :: rest

variable {links}

theorem perm_filter_of_previous {pending : List R} (hn : (pending.map links.previous).Nodup) {r : R}
    (hm : r ∈ pending) : pending.Perm (r :: pending.filter (links.previous · ≠ links.previous r)) := by
  induction pending with
  | nil => cases hm
  | cons q qs ih =>
    obtain ⟨hq, hqs⟩ := List.nodup_cons.mp hn
    rcases List.mem_cons.mp hm with rfl | hm
    · have hkeep : qs.filter (links.previous · ≠ links.previous r) = qs := by
        refine List.filter_eq_self.mpr fun s hs => decide_eq_true fun he => hq ?_
        rw [← he]
        exact List.mem_map_of_mem hs
      rw [List.filter_cons_of_neg (by simp), hkeep]
    · have hne : links.previous q ≠ links.previous r := fun he => hq (he ▸ List.mem_map_of_mem hm)
      rw [List.filter_cons_of_pos (by simpa using hne)]
      exact ((ih hqs hm).cons q).trans (.swap r q _)

theorem follow_nil {check : R → Except E Unit} {broken : E} {fuel : Nat} {start : Option D} {ordered : List R} :
    links.follow check broken fuel start [] = .ok ordered ↔
      [].Perm ordered ∧ links.Linked start ordered ∧ ∀ r ∈ ordered, check r = .ok () := by
  have hf : links.follow check broken fuel start [] = .ok [] := by cases fuel <;> rfl
  rw [hf]
  constructor
  · intro h
    cases h
    simp
  · intro h
    rw [List.nil_perm.mp h.1]

theorem follow_pending (links : Links R D) (check : R → Except E Unit) (broken : E) (fuel : Nat) (start : Option D)
    {pending : List R} (h : pending ≠ []) : links.follow check broken (fuel + 1) start pending =
      match pending.find? (links.previous · = start) with
      | none => .error broken
      | some r => do
        check r
        let rest ← links.follow check broken fuel (some (links.digest r)) (pending.filter (links.previous · ≠ start))
        return r :: rest := by
  cases pending with
  | nil => exact absurd rfl h
  | cons p ps => rfl

/-- A record leaves the search with every step, so as many steps as there are records are enough. -/
theorem follow_fuel (check : R → Except E Unit) (broken : E) {fuel fuel' : Nat} {start : Option D} {pending : List R}
    (h : pending.length ≤ fuel) (h' : pending.length ≤ fuel') :
    links.follow check broken fuel start pending = links.follow check broken fuel' start pending := by
  induction fuel generalizing fuel' start pending with
  | zero =>
    obtain rfl : pending = [] := List.eq_nil_of_length_eq_zero (by omega)
    cases fuel' <;> rfl
  | succ fuel ih =>
    by_cases hne : pending = []
    · subst hne
      cases fuel' <;> rfl
    · have hpos : 0 < pending.length := List.length_pos_of_ne_nil hne
      obtain ⟨fuel', rfl⟩ : ∃ n, fuel' = n + 1 := ⟨fuel' - 1, by omega⟩
      rw [follow_pending links check broken fuel start hne, follow_pending links check broken fuel' start hne]
      cases hfind : pending.find? (links.previous · = start) with
      | none => rfl
      | some r =>
        have hless : (pending.filter (links.previous · ≠ start)).length < pending.length :=
          List.length_filter_lt_length_iff_exists.mpr
            ⟨r, List.mem_of_find?_eq_some hfind, by simpa using List.find?_some hfind⟩
        have hrest (next : Option D) := @ih fuel' next _ (show _ ≤ fuel by omega)
          (show (pending.filter (links.previous · ≠ start)).length ≤ fuel' by omega)
        simp only [hrest]

/-- A chain of some records begins with the one that names its start. -/
theorem linked_perm_iff {pending ordered : List R} (hn : (pending.map links.previous).Nodup) {r : R}
    (hm : r ∈ pending) : pending.Perm ordered ∧ links.Linked (links.previous r) ordered ↔
      ∃ rest, ordered = r :: rest ∧ (pending.filter (links.previous · ≠ links.previous r)).Perm rest ∧
        links.Linked (some (links.digest r)) rest := by
  have hperm := perm_filter_of_previous hn hm
  constructor
  · rintro ⟨hp, hl⟩
    cases ordered with
    | nil => exact absurd (hp.mem_iff.mp hm) List.not_mem_nil
    | cons o rest =>
      obtain rfl : o = r := List.inj_on_of_nodup_map hn (hp.mem_iff.mpr List.mem_cons_self) hm hl.1
      exact ⟨rest, rfl, (hperm.symm.trans hp).cons_inv, hl.2⟩
  · rintro ⟨rest, rfl, hp, hl⟩
    exact ⟨hperm.trans (hp.cons r), rfl, hl⟩

/-- Following the records succeeds exactly when they form one chain of checked records,
and returns it, whatever order they came in. -/
theorem follow_eq_ok (links : Links R D) (check : R → Except E Unit) (broken : E) {fuel : Nat} {start : Option D}
    {pending ordered : List R} (hf : pending.length ≤ fuel) (hn : (pending.map links.previous).Nodup) :
    links.follow check broken fuel start pending = .ok ordered ↔
      pending.Perm ordered ∧ links.Linked start ordered ∧ ∀ r ∈ ordered, check r = .ok () := by
  induction fuel generalizing start pending ordered with
  | zero =>
    obtain rfl : pending = [] := List.eq_nil_of_length_eq_zero (by omega)
    exact follow_nil
  | succ fuel ih =>
    by_cases hne : pending = []
    · subst hne
      exact follow_nil
    rw [follow_pending links check broken fuel start hne]
    cases hfind : pending.find? (links.previous · = start) with
    | none =>
      refine Iff.intro (fun h => nomatch h) ?_
      rintro ⟨hp, hl, _⟩
      cases ordered with
      | nil => exact absurd hp.eq_nil hne
      | cons o os =>
        have hm : o ∈ pending := hp.mem_iff.mpr List.mem_cons_self
        exact absurd hl.1 (by simpa using List.find?_eq_none.mp hfind o hm)
    | some r =>
      have hm : r ∈ pending := List.mem_of_find?_eq_some hfind
      obtain rfl : links.previous r = start := by simpa using List.find?_some hfind
      have hlen := (perm_filter_of_previous hn hm).length_eq
      rw [List.length_cons] at hlen
      have hrest := @ih (some (links.digest r)) (pending.filter (links.previous · ≠ links.previous r))
      rw [← and_assoc, linked_perm_iff hn hm]
      constructor
      · intro h
        cases hc : check r with
        | error e => simp only [hc] at h; cases h
        | ok u =>
          cases hx : links.follow check broken fuel (some (links.digest r))
              (pending.filter (links.previous · ≠ links.previous r)) with
          | error e => simp only [hc, hx] at h; cases h
          | ok rest =>
            simp only [hc, hx] at h
            cases h
            obtain ⟨hp, hl, hck⟩ := (hrest (by omega) ((List.filter_sublist.map _).nodup hn)).mp hx
            exact ⟨⟨rest, rfl, hp, hl⟩, List.forall_mem_cons.mpr ⟨hc, hck⟩⟩
      · rintro ⟨⟨rest, rfl, hp, hl⟩, hck⟩
        obtain ⟨hc, hck⟩ := List.forall_mem_cons.mp hck
        have hx := (hrest (by omega) ((List.filter_sublist.map _).nodup hn)).mpr ⟨hp, hl, hck⟩
        simp only [hc, hx]
        rfl

end Links
end StockContent.Storage
