import Mathlib.Data.Finset.Sort
import Mathlib.Data.Prod.Lex
import StockContent.Storage.Json
import StockContent.Storage.StableSort

/-! Review items of one uncertainty: the narrowest windows are looked at, and what holds one of them is left out. -/
namespace StockContent.Knowledge
open Storage

/-- The fields of a review item that are read, and what else it says. -/
structure ReviewItem (Extra : Type) where
  status : Option Json
  kind : Option Json
  segmentIndices : Option Json
  rawText : Option Json
  extra : Extra

/-- A valid unresolved item, with its segments as a set. -/
structure AmbiguityItem (Extra : Type) where
  kind : String
  segments : Finset Nat
  nonempty : segments.Nonempty
  rawText : Option Json
  extra : Extra

section Items
variable {Extra : Type} (text : Json → String) (kinds : Option (Finset String))

/-- Booleans are integers. -/
def segmentIndex : Json → Option Nat
  | .int n => if 0 ≤ n then some n.toNat else none
  | .bool b => some b.toNat
  | _ => none

def ambiguityOf (item : ReviewItem Extra) : Option (AmbiguityItem Extra) :=
  match item.status, item.kind, item.segmentIndices with
  | some (.str status), some (.str kind), some (.arr indices) =>
    if status = "UNRESOLVED" ∧ kinds.all (kind ∈ ·) then
      (indices.mapM segmentIndex).bind fun segments =>
        if h : segments.toFinset.Nonempty then some ⟨kind, segments.toFinset, h, item.rawText, item.extra⟩ else none
    else none
  | _, _, _ => none

/-- The copy of an item that has its segments sorted. -/
def AmbiguityItem.toItem (c : AmbiguityItem Extra) : ReviewItem Extra where
  status := some (.str "UNRESOLVED")
  kind := some (.str c.kind)
  segmentIndices := some (.arr ((c.segments.sort (· ≤ ·)).map fun index : Nat => .int index))
  rawText := c.rawText
  extra := c.extra

def AmbiguityItem.first (c : AmbiguityItem Extra) : Nat := c.segments.min' c.nonempty

def AmbiguityItem.raw (c : AmbiguityItem Extra) : String := Json.orText text c.rawText

def narrowness (c : AmbiguityItem Extra) : Nat ×ₗ Nat ×ₗ String ×ₗ String :=
  toLex (c.segments.card, toLex (c.first, toLex (c.kind, c.raw text)))

def position (c : AmbiguityItem Extra) : Nat ×ₗ String := toLex (c.first, c.kind)

def exactKey (c : AmbiguityItem Extra) : String × Finset Nat × String := (c.kind, c.segments, c.raw text)

def AmbiguityItem.Covers (existing item : AmbiguityItem Extra) : Prop :=
  existing.kind = item.kind ∧ existing.segments ⊆ item.segments

instance : DecidableRel (@AmbiguityItem.Covers Extra) := fun existing item =>
  inferInstanceAs (Decidable (existing.kind = item.kind ∧ existing.segments ⊆ item.segments))

structure Selection (Extra : Type) where
  selected : List (AmbiguityItem Extra) := []
  seenExact : Finset (String × Finset Nat × String) := ∅

def selectItem (s : Selection Extra) (item : AmbiguityItem Extra) : Selection Extra :=
  if exactKey text item ∈ s.seenExact then s
  else if ∃ existing ∈ s.selected, existing.Covers item then s
  else { selected := s.selected ++ [item], seenExact := insert (exactKey text item) s.seenExact }

def candidates (items : List (ReviewItem Extra)) : List (AmbiguityItem Extra) := items.filterMap (ambiguityOf kinds)

/-- The items that are selected, in the order in which they are returned. -/
def selectedItems (items : List (ReviewItem Extra)) : List (AmbiguityItem Extra) :=
  sortedBy position ((sortedBy (narrowness text) (candidates kinds items)).foldl (selectItem text) {}).selected

def granularUnresolvedItems (items : List (ReviewItem Extra)) : List (ReviewItem Extra) :=
  (selectedItems text kinds items).map AmbiguityItem.toItem

end Items

section Selecting
variable {Extra : Type} {text : Json → String} {kinds : Option (Finset String)} {items others : List (ReviewItem Extra)}
  {c d : AmbiguityItem Extra} {cs ds : List (AmbiguityItem Extra)}

theorem AmbiguityItem.covers_refl (c : AmbiguityItem Extra) : c.Covers c := ⟨rfl, Finset.Subset.refl _⟩

theorem AmbiguityItem.Covers.trans {e : AmbiguityItem Extra} (h : c.Covers d) (h' : d.Covers e) : c.Covers e :=
  ⟨h.1.trans h'.1, h.2.trans h'.2⟩

theorem narrowness_eq_iff : narrowness text c = narrowness text d ↔
    c.segments.card = d.segments.card ∧ c.first = d.first ∧ c.kind = d.kind ∧ c.raw text = d.raw text := by
  simp only [narrowness, toLex_inj, Prod.mk.injEq]

theorem narrowness_eq (hkind : c.kind = d.kind) (hsegments : c.segments = d.segments) (hraw : c.raw text = d.raw text) :
    narrowness text c = narrowness text d := by
  refine narrowness_eq_iff.mpr ⟨congrArg Finset.card hsegments, ?_, hkind, hraw⟩
  simp only [AmbiguityItem.first, hsegments]

theorem narrowness_lt (h : c.segments ⊂ d.segments) : narrowness text c < narrowness text d :=
  Prod.Lex.toLex_lt_toLex.mpr (.inl (Finset.card_lt_card h))

theorem position_eq (h : narrowness text c = narrowness text d) : position c = position d := by
  obtain ⟨_, hfirst, hkind, _⟩ := narrowness_eq_iff.mp h
  rw [position, position, hfirst, hkind]

/-- What is marked as seen is covered by a selected item, so that the second test decides. -/
theorem selectItem_eq (kept : List (AmbiguityItem Extra)) (item : AmbiguityItem Extra) :
    selectItem text ⟨kept, (kept.map (exactKey text)).toFinset⟩ item =
      ⟨keepUncovered AmbiguityItem.Covers kept item,
        ((keepUncovered AmbiguityItem.Covers kept item).map (exactKey text)).toFinset⟩ := by
  rw [selectItem, keepUncovered]
  split
  · rename_i hseen
    obtain ⟨existing, hexisting, hexact⟩ := List.mem_map.mp (List.mem_toFinset.mp hseen)
    simp only [exactKey, Prod.mk.injEq] at hexact
    obtain ⟨hkind, hsegments, _⟩ := hexact
    rw [if_pos ⟨existing, hexisting, hkind, hsegments.le⟩]
  · split
    · rfl
    · rw [List.map_append, List.toFinset_append, Finset.union_comm]
      rfl

theorem foldl_selectItem (kept cs : List (AmbiguityItem Extra)) :
    (cs.foldl (selectItem text) ⟨kept, (kept.map (exactKey text)).toFinset⟩).selected =
      cs.foldl (keepUncovered AmbiguityItem.Covers) kept := by
  induction cs generalizing kept with
  | nil => rfl
  | cons c cs ih => rw [List.foldl_cons, selectItem_eq, ih, List.foldl_cons]

/-- The selected items, the narrowest ones first. -/
def thinned (text : Json → String) (cs : List (AmbiguityItem Extra)) : List (AmbiguityItem Extra) :=
  thin AmbiguityItem.Covers (sortedBy (narrowness text) cs)

theorem selectedItems_eq : selectedItems text kinds items = sortedBy position (thinned text (candidates kinds items)) :=
  congrArg (sortedBy position) (foldl_selectItem [] _)

theorem mem_selectedItems : c ∈ selectedItems text kinds items ↔ c ∈ thinned text (candidates kinds items) := by
  rw [selectedItems_eq, mem_sortedBy]

theorem mem_of_thinned (h : c ∈ thinned text cs) : c ∈ cs :=
  mem_sortedBy.mp ((thin_sublist _).subset h)

theorem thinned_sorted (text : Json → String) (cs : List (AmbiguityItem Extra)) :
    (thinned text cs).Pairwise fun x y => narrowness text x ≤ narrowness text y :=
  (pairwise_sortedBy _ cs).sublist (thin_sublist _)

theorem thinned_covers (text : Json → String) (h : c ∈ cs) : ∃ kept ∈ thinned text cs, kept.Covers c :=
  thin_covers AmbiguityItem.covers_refl (mem_sortedBy.mpr h)

/-- No item of the same kind is strictly inside of it. -/
def Narrowest (cs : List (AmbiguityItem Extra)) (c : AmbiguityItem Extra) : Prop :=
  c ∈ cs ∧ ∀ other ∈ cs, other.Covers c → other.segments = c.segments

/-- A selected item covers no other one. -/
theorem thinned_apart (hc : c ∈ thinned text cs) (hd : d ∈ thinned text cs) (h : c.Covers d) :
    c = d ∨ narrowness text d ≤ narrowness text c := by
  have hpairs : (thinned text cs).Pairwise fun x y => ¬ x.Covers y ∧ narrowness text x ≤ narrowness text y :=
    (pairwise_thin _).and (thinned_sorted text cs)
  by_cases heq : c = d
  · exact .inl heq
  · rcases pairwise_either hpairs hc hd heq with hcd | hdc
    · exact absurd h hcd.1
    · exact .inr hdc.2

theorem thinned_narrowest (h : c ∈ thinned text cs) : Narrowest cs c := by
  refine ⟨mem_of_thinned h, fun other hother hcovers => ?_⟩
  by_contra hne
  obtain ⟨kept, hkept, hinside⟩ := thinned_covers text hother
  have hlt : narrowness text kept < narrowness text c :=
    narrowness_lt (hinside.2.trans_ssubset (hcovers.2.ssubset_of_ne hne))
  rcases thinned_apart hkept h (hinside.trans hcovers) with rfl | hle
  · exact lt_irrefl _ hlt
  · exact absurd hlt (not_lt.mpr hle)

/-- Selected items with the same segments are one. -/
theorem thinned_inj (hc : c ∈ thinned text cs) (hd : d ∈ thinned text cs) (hkind : c.kind = d.kind)
    (hsegments : c.segments = d.segments) : c = d := by
  by_contra hne
  have hpairs : (thinned text cs).Pairwise fun x y => ¬ x.Covers y := pairwise_thin _
  rcases pairwise_either hpairs hc hd hne with hcd | hdc
  · exact hcd ⟨hkind, hsegments.le⟩
  · exact hdc ⟨hkind.symm, hsegments.ge⟩

/-- Of the narrowest items, those with the same segments have the same wording, and those with the same sort key are
equal. -/
structure Unambiguous (text : Json → String) (cs : List (AmbiguityItem Extra)) : Prop where
  wording : ∀ c d, Narrowest cs c → Narrowest cs d → c.kind = d.kind → c.segments = d.segments → c.raw text = d.raw text
  ties : ∀ c d, Narrowest cs c → Narrowest cs d → narrowness text c = narrowness text d → c = d

theorem Unambiguous.mem_thinned (h : Unambiguous text cs) : c ∈ thinned text cs ↔ Narrowest cs c := by
  refine ⟨thinned_narrowest, fun hc => ?_⟩
  obtain ⟨kept, hkept, hcovers⟩ := thinned_covers text hc.1
  have hnarrowest := thinned_narrowest hkept
  have hsegments := hc.2 kept (mem_of_thinned hkept) hcovers
  have hraw := h.wording kept c hnarrowest hc hcovers.1 hsegments
  rwa [← h.ties kept c hnarrowest hc (narrowness_eq hcovers.1 hsegments hraw)]

theorem Unambiguous.strict (h : Unambiguous text cs) :
    (thinned text cs).Pairwise fun x y => narrowness text x < narrowness text y := by
  refine (List.Pairwise.and_mem.mp ((pairwise_thin _).and (thinned_sorted text cs))).imp fun hpair => ?_
  obtain ⟨hx, hy, hapart, hle⟩ := hpair
  refine lt_of_le_of_ne hle fun heq => hapart ?_
  rw [h.ties _ _ (thinned_narrowest hx) (thinned_narrowest hy) heq]
  exact AmbiguityItem.covers_refl _

theorem candidates_perm (kinds : Option (Finset String)) (h : others.Perm items) :
    (candidates kinds others).Perm (candidates kinds items) := h.filterMap _

theorem narrowest_perm (hperm : ds.Perm cs) : Narrowest ds c ↔ Narrowest cs c := by
  simp only [Narrowest, hperm.mem_iff]

theorem Unambiguous.perm (h : Unambiguous text cs) (hperm : ds.Perm cs) : Unambiguous text ds where
  wording := fun c d hc hd => h.wording c d ((narrowest_perm hperm).mp hc) ((narrowest_perm hperm).mp hd)
  ties := fun c d hc hd => h.ties c d ((narrowest_perm hperm).mp hc) ((narrowest_perm hperm).mp hd)

theorem Unambiguous.thinned_eq (h : Unambiguous text cs) (hperm : ds.Perm cs) : thinned text ds = thinned text cs := by
  have hirrefl : Std.Irrefl fun x y : AmbiguityItem Extra => narrowness text x < narrowness text y :=
    ⟨fun x => lt_irrefl _⟩
  have hantisymm : Std.Antisymm fun x y : AmbiguityItem Extra => narrowness text x < narrowness text y :=
    ⟨fun x y hxy hyx => absurd hxy (lt_asymm hyx)⟩
  refine List.Pairwise.eq_of_mem_iff (h.perm hperm).strict h.strict fun c => ?_
  rw [(h.perm hperm).mem_thinned, h.mem_thinned, narrowest_perm hperm]

/-- The first of the narrowest items is the first selected one with its sort key. -/
theorem thinned_head (hc : Narrowest (c :: cs) c)
    (hwording : ∀ d, Narrowest (c :: cs) d → d.kind = c.kind → d.segments = c.segments → d.raw text = c.raw text) :
    ∃ rest, (thinned text (c :: cs)).filter (fun x => narrowness text x = narrowness text c) = c :: rest := by
  obtain ⟨before, after, hsorted, hbefore⟩ := exists_sortedBy_cons (narrowness text) c cs
  have hmem : ∀ d ∈ before, d ∈ c :: cs := fun d hd =>
    mem_sortedBy.mp (hsorted ▸ List.mem_append_left _ hd)
  have huncovered : ∀ d ∈ before, ¬ d.Covers c := fun d hd hcovers => by
    have hsegments := hc.2 d (hmem d hd) hcovers
    have hnarrowest : Narrowest (c :: cs) d := ⟨hmem d hd, fun other hother hinside =>
      (hc.2 other hother (hinside.trans hcovers)).trans hsegments.symm⟩
    exact (hbefore d hd).ne (narrowness_eq hcovers.1 hsegments (hwording d hnarrowest hcovers.1 hsegments))
  obtain ⟨added, hadded⟩ := thin_of_uncovered huncovered after
  have hnone : (thin AmbiguityItem.Covers before).filter (fun x => narrowness text x = narrowness text c) = [] := by
    refine List.filter_eq_nil_iff.mpr fun d hd heq => ?_
    exact (hbefore d ((thin_sublist before).subset hd)).ne (of_decide_eq_true heq)
  refine ⟨added.filter fun x => narrowness text x = narrowness text c, ?_⟩
  rw [thinned, hsorted, hadded, List.filter_append, hnone, List.nil_append, List.filter_cons, if_pos (decide_eq_true rfl)]

theorem mapM_segmentIndex (indices : List Nat) :
    (indices.map fun index : Nat => Json.int index).mapM segmentIndex = some indices := by
  induction indices with
  | nil => rfl
  | cons index indices ih =>
    have hindex : segmentIndex (.int index) = some index := by
      rw [segmentIndex, if_pos (Int.natCast_nonneg index), Int.toNat_natCast]
    rw [List.map_cons, List.mapM_cons, ih, hindex]
    rfl

theorem ambiguityOf_toItem (hkind : kinds.all (c.kind ∈ ·)) : ambiguityOf kinds c.toItem = some c := by
  rw [AmbiguityItem.toItem, ambiguityOf]
  simp only [hkind, and_self, if_true, mapM_segmentIndex, Option.bind_some, Finset.sort_toFinset, dif_pos c.nonempty]

theorem kind_of_ambiguityOf {item : ReviewItem Extra} (h : ambiguityOf kinds item = some c) : kinds.all (c.kind ∈ ·) := by
  rw [ambiguityOf] at h
  split at h
  · split at h
    · rename_i hvalid
      obtain ⟨segments, _, h⟩ := Option.bind_eq_some_iff.mp h
      split at h
      · cases h
        exact hvalid.2
      · cases h
    · cases h
  · cases h

theorem candidates_toItem (h : ∀ c ∈ cs, kinds.all (c.kind ∈ ·)) : candidates kinds (cs.map AmbiguityItem.toItem) = cs := by
  rw [candidates, List.filterMap_map]
  refine (List.filterMap_congr fun c hc => ambiguityOf_toItem (h c hc)).trans List.filterMap_some

/-- The returned items are read as they were. -/
theorem candidates_granular :
    candidates kinds (granularUnresolvedItems text kinds items) = selectedItems text kinds items := by
  refine candidates_toItem fun c hc => ?_
  obtain ⟨item, _, hread⟩ := List.mem_filterMap.mp (mem_of_thinned (mem_selectedItems.mp hc))
  exact kind_of_ambiguityOf hread

end Selecting

section Sound
variable {Extra : Type} {text : Json → String} {kinds : Option (Finset String)} {items others : List (ReviewItem Extra)}
  {c d : AmbiguityItem Extra}

/-- What thinning should keep, whatever the order of the items. -/
structure ThinningSound (text : Json → String) (kinds : Option (Finset String)) (items : List (ReviewItem Extra)) :
    Prop where
  orderFree : ∀ others, others.Perm items →
    granularUnresolvedItems text kinds others = granularUnresolvedItems text kinds items
  represented : ∀ c ∈ candidates kinds items, ∃ kept ∈ selectedItems text kinds items,
    kept.kind = c.kind ∧ kept.segments ⊆ c.segments
  redundant : ∀ c ∈ candidates kinds items, c ∉ selectedItems text kinds items → ∃ kept ∈ selectedItems text kinds items,
    kept.kind = c.kind ∧ (kept.segments = c.segments ∧ kept.raw text = c.raw text ∨ kept.segments ⊂ c.segments)
  idempotent : granularUnresolvedItems text kinds (granularUnresolvedItems text kinds items) =
    granularUnresolvedItems text kinds items

theorem granular_idempotent (text : Json → String) (kinds : Option (Finset String)) (items : List (ReviewItem Extra)) :
    granularUnresolvedItems text kinds (granularUnresolvedItems text kinds items) =
      granularUnresolvedItems text kinds items := by
  have hthinned : thinned text (selectedItems text kinds items) = thinned text (candidates kinds items) := by
    have hsorted := sortedBy_sortedBy position (fun _ _ => position_eq)
      (thinned_sorted text (candidates kinds items))
    rw [thinned, selectedItems_eq, hsorted]
    exact thin_eq (pairwise_thin _)
  rw [granularUnresolvedItems, selectedItems_eq, candidates_granular, hthinned, ← selectedItems_eq,
    granularUnresolvedItems]

/-- A narrowest item has a selected one with its segments and its wording. -/
theorem ThinningSound.exists_same (h : ThinningSound text kinds items) (hc : Narrowest (candidates kinds items) c) :
    ∃ kept ∈ thinned text (candidates kinds items),
      kept.kind = c.kind ∧ kept.segments = c.segments ∧ kept.raw text = c.raw text := by
  by_cases hselected : c ∈ selectedItems text kinds items
  · exact ⟨c, mem_selectedItems.mp hselected, rfl, rfl, rfl⟩
  · obtain ⟨kept, hkept, hkind, hsame | hinside⟩ := h.redundant c hc.1 hselected
    · exact ⟨kept, mem_selectedItems.mp hkept, hkind, hsame⟩
    · have hmem := mem_of_thinned (mem_selectedItems.mp hkept)
      exact absurd (hc.2 kept hmem ⟨hkind, hinside.subset⟩) hinside.ne

theorem ThinningSound.wording (h : ThinningSound text kinds items) (hc : Narrowest (candidates kinds items) c)
    (hd : Narrowest (candidates kinds items) d) (hkind : c.kind = d.kind) (hsegments : c.segments = d.segments) :
    c.raw text = d.raw text := by
  obtain ⟨kept, hkept, hkind', hsegments', hraw⟩ := h.exists_same hc
  obtain ⟨other, hother, hkind'', hsegments'', hraw'⟩ := h.exists_same hd
  have hsame : kept = other := thinned_inj hkept hother (hkind'.trans (hkind.trans hkind''.symm))
    (hsegments'.trans (hsegments.trans hsegments''.symm))
  rw [← hraw, hsame, hraw']

/-- Items can come in an order that puts a narrowest one first. -/
theorem ThinningSound.head (h : ThinningSound text kinds items) (hc : Narrowest (candidates kinds items) c) :
    ∃ rest, (selectedItems text kinds items).filter (fun x => narrowness text x = narrowness text c) = c :: rest := by
  obtain ⟨item, hitem, hread⟩ := List.mem_filterMap.mp hc.1
  obtain ⟨before, after, rfl⟩ := List.append_of_mem hitem
  have hperm : (item :: (before ++ after)).Perm (before ++ item :: after) := List.perm_middle.symm
  have hcandidates : candidates kinds (item :: (before ++ after)) = c :: candidates kinds (before ++ after) :=
    List.filterMap_cons_some hread
  have hselected : selectedItems text kinds (item :: (before ++ after)) =
      selectedItems text kinds (before ++ item :: after) := by
    rw [← candidates_granular, h.orderFree _ hperm, candidates_granular]
  have hnarrowest : ∀ d, Narrowest (c :: candidates kinds (before ++ after)) d →
      Narrowest (candidates kinds (before ++ item :: after)) d := fun d hd =>
    (narrowest_perm (candidates_perm kinds hperm)).mp (hcandidates ▸ hd)
  have hfirst : Narrowest (c :: candidates kinds (before ++ after)) c :=
    hcandidates ▸ (narrowest_perm (candidates_perm kinds hperm)).mpr hc
  rw [← hselected, selectedItems_eq, filter_sortedBy, hcandidates]
  · exact thinned_head hfirst fun d hd hkind hsegments => h.wording (hnarrowest d hd) hc hkind hsegments
  · exact fun x y hx hy => position_eq ((of_decide_eq_true hx).trans (of_decide_eq_true hy).symm)

/-- Thinning is sound exactly if the narrowest items do not differ in their wording alone, or in nothing that they are
sorted by. -/
theorem thinning_sound_iff (text : Json → String) (kinds : Option (Finset String)) (items : List (ReviewItem Extra)) :
    ThinningSound text kinds items ↔ Unambiguous text (candidates kinds items) := by
  constructor
  · intro h
    refine ⟨fun c d => h.wording, fun c d hc hd hkey => ?_⟩
    obtain ⟨_, hfirst⟩ := h.head hc
    obtain ⟨_, hother⟩ := h.head hd
    rw [hkey, hother] at hfirst
    exact (List.cons.inj hfirst).1.symm
  · intro h
    refine ⟨fun others hperm => ?_, fun c hc => ?_, fun c hc _ => ?_, granular_idempotent text kinds items⟩
    · rw [granularUnresolvedItems, selectedItems_eq, h.thinned_eq (candidates_perm kinds hperm), ← selectedItems_eq,
        granularUnresolvedItems]
    · obtain ⟨kept, hkept, hcovers⟩ := thinned_covers text hc
      exact ⟨kept, mem_selectedItems.mpr hkept, hcovers⟩
    · obtain ⟨kept, hkept, hkind, hinside⟩ := thinned_covers text hc
      refine ⟨kept, mem_selectedItems.mpr hkept, hkind, ?_⟩
      rcases hinside.eq_or_ssubset with hsegments | hstrict
      · have hnarrowest := thinned_narrowest hkept
        refine .inl ⟨hsegments, h.wording kept c hnarrowest ⟨hc, fun other hother hcovers => ?_⟩ hkind hsegments⟩
        rw [← hsegments]
        exact hnarrowest.2 other hother ⟨hcovers.1.trans hkind.symm, hsegments.symm ▸ hcovers.2⟩
      · exact .inr hstrict

/-- An ambiguity of one segment. -/
def ambiguityAt (segment : Nat) (rawText : String) : AmbiguityItem Unit :=
  ⟨"ENTITY", {segment}, Finset.singleton_nonempty segment, some (.str rawText), ()⟩

/-- Two words of one segment are unclear, and only the first one is reviewed. -/
theorem second_wording_dropped : ¬ ThinningSound (fun _ => "") none
    [(ambiguityAt 5 "甲").toItem, (ambiguityAt 5 "乙").toItem] := by
  intro h
  have hcandidates : candidates none ([ambiguityAt 5 "甲", ambiguityAt 5 "乙"].map AmbiguityItem.toItem) =
      [ambiguityAt 5 "甲", ambiguityAt 5 "乙"] := candidates_toItem fun _ _ => rfl
  have hsegments : ∀ c ∈ [ambiguityAt 5 "甲", ambiguityAt 5 "乙"], c.segments = {5} := by
    simp only [List.forall_mem_cons, List.not_mem_nil, false_imp_iff, implies_true, and_true]
    exact ⟨rfl, rfl⟩
  have hnarrowest : ∀ c ∈ [ambiguityAt 5 "甲", ambiguityAt 5 "乙"],
      Narrowest (candidates none ([ambiguityAt 5 "甲", ambiguityAt 5 "乙"].map AmbiguityItem.toItem)) c := fun c hc => by
    rw [hcandidates]
    exact ⟨hc, fun other hother _ => (hsegments other hother).trans (hsegments c hc).symm⟩
  have hraw : (ambiguityAt 5 "甲").raw (fun _ => "") = (ambiguityAt 5 "乙").raw fun _ => "" :=
    h.wording (hnarrowest _ List.mem_cons_self) (hnarrowest _ (List.mem_cons_of_mem _ List.mem_cons_self)) rfl rfl
  exact absurd hraw (by decide)

end Sound
end StockContent.Knowledge
