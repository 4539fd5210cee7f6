import StockContent.Lineage.MarkedSearch
import StockContent.Lineage.SnapshotLineage

/-! Before a snapshot is replayed, the snapshots above it are walked: all of them have to be there, and none above
itself. -/
namespace StockContent.Lineage
open Storage

/-- What the walk raises, or the store does when a row is read. -/
inductive ReplayError (E : Type) where
  | integrity (code message : String)
  | store (error : E)
  deriving DecidableEq

/-- Without a store nothing is checked. -/
structure SnapshotAncestry where
  checked : Bool
  snapshotIds : List String
  deriving DecidableEq

section Walk
variable {Columns Rest E : Type} (rowToSnapshot : SnapshotRow Columns → Except E (SnapshotBody Rest))
  (snapshots : SnapshotTable Columns)

def ancestryCycle (identifier : String) : ReplayError E :=
  .integrity "REPLAY_LINEAGE_CYCLE" ("snapshot parent cycle includes " ++ identifier)

def ancestryMissing (identifier parentId : String) : ReplayError E :=
  .integrity "REPLAY_LINEAGE_REFERENCE_MISSING" ("snapshot " ++ identifier ++ " references missing parent " ++ parentId)

/-- The parent, and then the snapshot that is superseded, also where they are one. -/
def ancestryLinks (item : ContentSnapshot Rest) : List String :=
  (item.parentSnapshotId.toList ++ item.supersedesSnapshotId.toList).filter (· ≠ "")

def followLink (walk : Marks String → ContentSnapshot Rest → Except (Stop (ReplayError E)) (Marks String))
    (identifier : String) (marks : Marks String) (parentId : String) : Except (Stop (ReplayError E)) (Marks String) :=
  match getSnapshot rowToSnapshot snapshots parentId with
  | .error error => .error (.raised (.store error))
  | .ok none => .error (.raised (ancestryMissing identifier parentId))
  | .ok (some parent) => walk marks parent

/-- `walk`: a snapshot is visited once all that it links to are. -/
def ancestryWalk : Nat → Marks String → ContentSnapshot Rest → Except (Stop (ReplayError E)) (Marks String)
  | 0, _, _ => .error .unfinished
  | fuel + 1, marks, item =>
    if item.contentSnapshotId ∈ marks.visiting then .error (.raised (ancestryCycle item.contentSnapshotId))
    else if item.contentSnapshotId ∈ marks.validated then .ok marks
    else do
      let above ← (ancestryLinks item).foldlM
        (followLink rowToSnapshot snapshots (ancestryWalk fuel) item.contentSnapshotId)
        { marks with visiting := item.contentSnapshotId :: marks.visiting }
      .ok { visiting := above.visiting.erase item.contentSnapshotId
            validated := item.contentSnapshotId :: above.validated }

/-- A way up has no more snapshots on it than are stored, the given one and one that is met again. -/
def verifySnapshotAncestry (store : Option (SnapshotTable Columns)) (snapshot : ContentSnapshot Rest) :
    Except (Stop (ReplayError E)) SnapshotAncestry :=
  match store with
  | none => .ok ⟨false, []⟩
  | some snapshots => do
    let visited ← ancestryWalk rowToSnapshot snapshots (snapshots.rows.length + 2) ⟨[], []⟩ snapshot
    .ok ⟨true, sortedSet visited.validated⟩

/-- The links of every snapshot that can be read; the given one is not read again. -/
def ancestryGraph (snapshot : ContentSnapshot Rest) (contentSnapshotId : String) : Option (List String) :=
  if contentSnapshotId = snapshot.contentSnapshotId then some (ancestryLinks snapshot)
  else match getSnapshot rowToSnapshot snapshots contentSnapshotId with
    | .ok (some item) => some (ancestryLinks item)
    | _ => none

variable {rowToSnapshot snapshots} {snapshot item : ContentSnapshot Rest} {fuel : Nat} {path : List String}
  {marks marks' : Marks String}

inductive AncestryStep (rowToSnapshot : SnapshotRow Columns → Except E (SnapshotBody Rest))
    (snapshots : SnapshotTable Columns) (fuel : Nat) (marks : Marks String) (item : ContentSnapshot Rest) :
    Except (Stop (ReplayError E)) (Marks String) → Prop
  | onCycle (hitem : item.contentSnapshotId ∈ marks.visiting) :
      AncestryStep rowToSnapshot snapshots fuel marks item
        (.error (.raised (ancestryCycle item.contentSnapshotId)))
  | visited (hitem : item.contentSnapshotId ∈ marks.validated) :
      AncestryStep rowToSnapshot snapshots fuel marks item (.ok marks)
  | walked {above : Marks String} (hitem : item.contentSnapshotId ∉ marks.visiting)
      (habove : (ancestryLinks item).foldlM
        (followLink rowToSnapshot snapshots (ancestryWalk rowToSnapshot snapshots fuel) item.contentSnapshotId)
        { marks with visiting := item.contentSnapshotId :: marks.visiting } = .ok above) :
      AncestryStep rowToSnapshot snapshots fuel marks item
        (.ok { visiting := above.visiting.erase item.contentSnapshotId
               validated := item.contentSnapshotId :: above.validated })
  | stopped {stop : Stop (ReplayError E)} (hitem : item.contentSnapshotId ∉ marks.visiting)
      (habove : (ancestryLinks item).foldlM
        (followLink rowToSnapshot snapshots (ancestryWalk rowToSnapshot snapshots fuel) item.contentSnapshotId)
        { marks with visiting := item.contentSnapshotId :: marks.visiting } = .error stop) :
      AncestryStep rowToSnapshot snapshots fuel marks item (.error stop)

variable (rowToSnapshot snapshots) in
theorem ancestryWalk_step (fuel : Nat) (marks : Marks String) (item : ContentSnapshot Rest) :
    AncestryStep rowToSnapshot snapshots fuel marks item
      (ancestryWalk rowToSnapshot snapshots (fuel + 1) marks item) := by
  rw [ancestryWalk]
  by_cases hvisiting : item.contentSnapshotId ∈ marks.visiting
  · rw [if_pos hvisiting]
    exact .onCycle hvisiting
  rw [if_neg hvisiting]
  by_cases hvisited : item.contentSnapshotId ∈ marks.validated
  · rw [if_pos hvisited]
    exact .visited hvisited
  rw [if_neg hvisited]
  cases habove : (ancestryLinks item).foldlM
      (followLink rowToSnapshot snapshots (ancestryWalk rowToSnapshot snapshots fuel) item.contentSnapshotId)
      { marks with visiting := item.contentSnapshotId :: marks.visiting } with
  | error stop => exact .stopped hvisiting habove
  | ok above => exact .walked hvisiting habove

/-- A snapshot whose links are those of the graph, unless it is on the way already. -/
def Placed (rowToSnapshot : SnapshotRow Columns → Except E (SnapshotBody Rest)) (snapshots : SnapshotTable Columns)
    (snapshot : ContentSnapshot Rest) (path : List String) (item : ContentSnapshot Rest) : Prop :=
  item.contentSnapshotId ∈ path ∨
    ancestryGraph rowToSnapshot snapshots snapshot item.contentSnapshotId = some (ancestryLinks item)

/-- The given snapshot stays on the way, so that what is stored under its id is never walked. -/
theorem placed_parent {parent : ContentSnapshot Rest} {parentId : String}
    (h : getSnapshot rowToSnapshot snapshots parentId = .ok (some parent))
    (hstart : snapshot.contentSnapshotId ∈ path) : Placed rowToSnapshot snapshots snapshot path parent := by
  have hid := getSnapshot_id h
  by_cases hroot : parent.contentSnapshotId = snapshot.contentSnapshotId
  · exact .inl (hroot ▸ hstart)
  · refine .inr ?_
    rw [ancestryGraph, if_neg hroot, hid, h]

theorem ancestryGraph_missing {parentId : String} {result : Except E (Option (ContentSnapshot Rest))}
    (h : getSnapshot rowToSnapshot snapshots parentId = result) (hresult : ∀ item, result ≠ .ok (some item))
    (hroot : parentId ≠ snapshot.contentSnapshotId) :
    ancestryGraph rowToSnapshot snapshots snapshot parentId = none := by
  rw [ancestryGraph, if_neg hroot, h]
  cases result with
  | error error => rfl
  | ok found =>
    cases found with
    | none => rfl
    | some item => exact absurd rfl (hresult item)

theorem followLink_eq_ok {walk : Marks String → ContentSnapshot Rest → Except (Stop (ReplayError E)) (Marks String)}
    {identifier parentId : String} (h : followLink rowToSnapshot snapshots walk identifier marks parentId = .ok marks') :
    ∃ parent, getSnapshot rowToSnapshot snapshots parentId = .ok (some parent) ∧ walk marks parent = .ok marks' := by
  rw [followLink] at h
  split at h
  · cases h
  · cases h
  · exact ⟨_, ‹_›, h⟩

/-- Between two calls: all that is visited hangs together, and comes from the root. -/
structure Explored (g : String → Option (List String)) (root : String) (path : List String) (marks : Marks String) : Prop
    extends Marked g path marks where
  linked : ∀ node ∈ marks.validated, ∃ parents ∈ g node, ∀ parent ∈ parents, parent ∈ marks.validated
  reached : ∀ node ∈ marks.validated, Reaches g root node

theorem Explored.enter {g : String → Option (List String)} {root : String} (h : Explored g root path marks)
    (node : String) : Explored g root (node :: path) { marks with visiting := node :: marks.visiting } :=
  { visiting := congrArg (node :: ·) h.visiting, founded := h.founded, linked := h.linked, reached := h.reached }

/-- The snapshot's links are followed, and then it is visited. -/
theorem Explored.leave {g : String → Option (List String)} {root node : String} {parents : List String}
    (h : Explored g root (node :: path) marks) (hparents : g node = some parents)
    (hall : ∀ parent ∈ parents, parent ∈ marks.validated) (hreach : Reaches g root node) :
    Explored g root path { visiting := marks.visiting.erase node, validated := node :: marks.validated } where
  visiting := by rw [h.visiting, List.erase_cons_head]
  founded := by
    refine List.forall_mem_cons.mpr ⟨Acc.intro node fun parent hparent => ?_, h.founded⟩
    obtain ⟨others, hothers, hmem⟩ := hparent
    cases hparents.symm.trans hothers
    exact h.founded parent (hall parent hmem)
  linked := by
    refine List.forall_mem_cons.mpr ⟨⟨parents, hparents, fun parent hmem => List.mem_cons_of_mem _ (hall parent hmem)⟩, ?_⟩
    intro other hother
    obtain ⟨above, habove, hin⟩ := h.linked other hother
    exact ⟨above, habove, fun parent hmem => List.mem_cons_of_mem _ (hin parent hmem)⟩
  reached := List.forall_mem_cons.mpr ⟨hreach, h.reached⟩

/-- A call that accepts visits its snapshot and forgets none. -/
theorem ancestryWalk_ok {root : String}
    (hmarks : Explored (ancestryGraph rowToSnapshot snapshots snapshot) root path marks)
    (hitem : Placed rowToSnapshot snapshots snapshot path item)
    (hstart : snapshot.contentSnapshotId ∈ item.contentSnapshotId :: path)
    (hreach : Reaches (ancestryGraph rowToSnapshot snapshots snapshot) root item.contentSnapshotId)
    (h : ancestryWalk rowToSnapshot snapshots fuel marks item = .ok marks') :
    Explored (ancestryGraph rowToSnapshot snapshots snapshot) root path marks' ∧
      item.contentSnapshotId ∈ marks'.validated ∧ ∀ node ∈ marks.validated, node ∈ marks'.validated := by
  induction fuel generalizing path marks marks' item with
  | zero => cases h
  | succ fuel ih =>
    have hstep := ancestryWalk_step rowToSnapshot snapshots fuel marks item
    generalize ancestryWalk rowToSnapshot snapshots (fuel + 1) marks item = result at h hstep
    cases hstep with
    | onCycle => cases h
    | stopped => cases h
    | visited hvisited =>
      cases h
      exact ⟨hmarks, hvisited, fun _ hnode => hnode⟩
    | walked hnew habove =>
      cases h
      have hlinks := hitem.resolve_left (hmarks.visiting ▸ hnew)
      obtain ⟨hdone, hall, hkept⟩ := foldlM_ok_kept
        (P := Explored (ancestryGraph rowToSnapshot snapshots snapshot) root (item.contentSnapshotId :: path))
        (R := fun marks node => node ∈ marks.validated)
        (fun parentId hparent marks marks' hmarks h => by
          obtain ⟨parent, hread, hwalk⟩ := followLink_eq_ok h
          have hedge : IsParent (ancestryGraph rowToSnapshot snapshots snapshot) item.contentSnapshotId parentId :=
            ⟨_, hlinks, hparent⟩
          have hid := getSnapshot_id hread
          have hnext := ih hmarks (placed_parent hread hstart) (List.mem_cons_of_mem _ hstart)
            (hid.symm ▸ hreach.tail hedge) hwalk
          rwa [hid] at hnext)
        (hmarks.enter item.contentSnapshotId) habove
      exact ⟨hdone.leave hlinks hall hreach, List.mem_cons_self, fun node hnode => List.mem_cons_of_mem _ (hkept node hnode)⟩

theorem followLink_explored {root parentId : String} {next next' : Marks String}
    (hlinks : ancestryGraph rowToSnapshot snapshots snapshot item.contentSnapshotId = some (ancestryLinks item))
    (hstart : snapshot.contentSnapshotId ∈ item.contentSnapshotId :: path)
    (hreach : Reaches (ancestryGraph rowToSnapshot snapshots snapshot) root item.contentSnapshotId)
    (hparent : parentId ∈ ancestryLinks item)
    (hmarks : Explored (ancestryGraph rowToSnapshot snapshots snapshot) root (item.contentSnapshotId :: path) next)
    (h : followLink rowToSnapshot snapshots (ancestryWalk rowToSnapshot snapshots fuel) item.contentSnapshotId next parentId =
      .ok next') :
    Explored (ancestryGraph rowToSnapshot snapshots snapshot) root (item.contentSnapshotId :: path) next' := by
  obtain ⟨parent, hread, hwalk⟩ := followLink_eq_ok h
  have hid := getSnapshot_id hread
  exact (ancestryWalk_ok hmarks (placed_parent hread hstart) (List.mem_cons_of_mem _ hstart)
    (hid.symm ▸ hreach.tail ⟨_, hlinks, hparent⟩) hwalk).1

theorem followLink_raised {walk : Marks String → ContentSnapshot Rest → Except (Stop (ReplayError E)) (Marks String)}
    {identifier parentId : String} {stop : Stop (ReplayError E)}
    (h : followLink rowToSnapshot snapshots walk identifier marks parentId = .error stop) :
    (∃ parent, getSnapshot rowToSnapshot snapshots parentId = .ok (some parent) ∧ walk marks parent = .error stop) ∨
      (stop ≠ .unfinished ∧ ∀ item, getSnapshot rowToSnapshot snapshots parentId ≠ .ok (some item)) := by
  rw [followLink] at h
  split at h
  · rename_i hread
    cases h
    exact .inr ⟨(nomatch ·), fun item hitem => by cases hread.symm.trans hitem⟩
  · rename_i hread
    cases h
    exact .inr ⟨(nomatch ·), fun item hitem => by cases hread.symm.trans hitem⟩
  · exact .inl ⟨_, ‹_›, h⟩

/-- A call raises only where a snapshot is missing above the root, or above itself. -/
theorem ancestryWalk_raised {root : String} {error : ReplayError E}
    (hmarks : Explored (ancestryGraph rowToSnapshot snapshots snapshot) root path marks)
    (hitem : Placed rowToSnapshot snapshots snapshot path item)
    (hstart : snapshot.contentSnapshotId ∈ item.contentSnapshotId :: path)
    (hpath : ∀ other ∈ path, Relation.TransGen (IsParent (ancestryGraph rowToSnapshot snapshots snapshot)) other
      item.contentSnapshotId)
    (hreach : Reaches (ancestryGraph rowToSnapshot snapshots snapshot) root item.contentSnapshotId)
    (h : ancestryWalk rowToSnapshot snapshots fuel marks item = .error (.raised error)) :
    ∃ node, Reaches (ancestryGraph rowToSnapshot snapshots snapshot) root node ∧
      (ancestryGraph rowToSnapshot snapshots snapshot node = none ∨
        OnCycle (ancestryGraph rowToSnapshot snapshots snapshot) node) := by
  induction fuel generalizing path marks item with
  | zero => cases h
  | succ fuel ih =>
    have hstep := ancestryWalk_step rowToSnapshot snapshots fuel marks item
    generalize ancestryWalk rowToSnapshot snapshots (fuel + 1) marks item = result at h hstep
    cases hstep with
    | visited => cases h
    | walked => cases h
    | onCycle hvisiting =>
      exact ⟨_, hreach, .inr (hpath _ (hmarks.visiting ▸ hvisiting))⟩
    | stopped hnew habove =>
      cases h
      have hlinks := hitem.resolve_left (hmarks.visiting ▸ hnew)
      have hinside := hmarks.enter item.contentSnapshotId
      obtain ⟨parentId, hparent, above, hmarked, hraised⟩ := foldlM_error
        (P := Explored (ancestryGraph rowToSnapshot snapshots snapshot) root (item.contentSnapshotId :: path))
        (fun _ hparent _ _ hmarks h => followLink_explored hlinks hstart hreach hparent hmarks h)
        hinside habove
      have hedge : IsParent (ancestryGraph rowToSnapshot snapshots snapshot) item.contentSnapshotId parentId :=
        ⟨_, hlinks, hparent⟩
      have hways : ∀ other ∈ item.contentSnapshotId :: path,
          Relation.TransGen (IsParent (ancestryGraph rowToSnapshot snapshots snapshot)) other parentId :=
        List.forall_mem_cons.mpr ⟨.single hedge, fun other hother => (hpath other hother).tail hedge⟩
      rcases followLink_raised hraised with hwalk | hmissing
      · obtain ⟨parent, hread, hwalk⟩ := hwalk
        have hid := getSnapshot_id hread
        exact ih hmarked (placed_parent hread hstart) (List.mem_cons_of_mem _ hstart) (hid.symm ▸ hways)
          (hid.symm ▸ hreach.tail hedge) hwalk
      · refine ⟨parentId, hreach.tail hedge, ?_⟩
        by_cases hroot : parentId = snapshot.contentSnapshotId
        · exact .inr (hways parentId (hroot ▸ hstart))
        · exact .inl (ancestryGraph_missing rfl hmissing.2 hroot)

/-- The snapshots on the way differ, and all but the given one are stored, so that a walk ends. -/
theorem ancestryWalk_finished {root : String}
    (hmarks : Explored (ancestryGraph rowToSnapshot snapshots snapshot) root path marks)
    (hitem : Placed rowToSnapshot snapshots snapshot path item)
    (hstart : snapshot.contentSnapshotId ∈ item.contentSnapshotId :: path)
    (hreach : Reaches (ancestryGraph rowToSnapshot snapshots snapshot) root item.contentSnapshotId)
    (hn : path.Nodup)
    (hstored : ∀ node ∈ item.contentSnapshotId :: path,
      node ∈ snapshot.contentSnapshotId :: snapshots.rows.map (·.contentSnapshotId))
    (hfuel : snapshots.rows.length + 1 < fuel + path.length) :
    ancestryWalk rowToSnapshot snapshots fuel marks item ≠ .error .unfinished := by
  induction fuel generalizing path marks item with
  | zero =>
    have hle := length_le_of_nodup hn fun node hnode => hstored node (List.mem_cons_of_mem _ hnode)
    rw [List.length_cons, List.length_map] at hle
    omega
  | succ fuel ih =>
    intro h
    have hstep := ancestryWalk_step rowToSnapshot snapshots fuel marks item
    generalize ancestryWalk rowToSnapshot snapshots (fuel + 1) marks item = result at h hstep
    cases hstep with
    | visited => cases h
    | walked => cases h
    | onCycle => cases h
    | stopped hnew habove =>
      cases h
      have hlinks := hitem.resolve_left (hmarks.visiting ▸ hnew)
      obtain ⟨parentId, hparent, above, hmarked, hstop⟩ := foldlM_error
        (P := Explored (ancestryGraph rowToSnapshot snapshots snapshot) root (item.contentSnapshotId :: path))
        (fun _ hparent _ _ hmarks h => followLink_explored hlinks hstart hreach hparent hmarks h)
        (hmarks.enter item.contentSnapshotId) habove
      obtain ⟨parent, hread, hwalk⟩ := (followLink_raised hstop).resolve_right fun hmissing => hmissing.1 rfl
      have hid := getSnapshot_id hread
      refine ih hmarked (placed_parent hread hstart) (List.mem_cons_of_mem _ hstart)
        (hid.symm ▸ hreach.tail ⟨_, hlinks, hparent⟩) ?_ ?_ ?_ hwalk
      · exact List.nodup_cons.mpr ⟨hmarks.visiting ▸ hnew, hn⟩
      · refine List.forall_mem_cons.mpr ⟨?_, hstored⟩
        rw [hid]
        exact List.mem_cons_of_mem _ (stored_of_getSnapshot hread)
      · rw [List.length_cons]
        omega

end Walk

section Exact
variable {Columns Rest E : Type} (rowToSnapshot : SnapshotRow Columns → Except E (SnapshotBody Rest))
  (snapshots : SnapshotTable Columns) (snapshot : ContentSnapshot Rest)

/-- The check ends. It accepts just the snapshots above which none is missing and none is above itself, and then returns
all that are reached, in order. -/
theorem snapshot_ancestry_exact :
    verifySnapshotAncestry rowToSnapshot (some snapshots) snapshot ≠ .error .unfinished ∧
    ((∃ ancestry, verifySnapshotAncestry rowToSnapshot (some snapshots) snapshot = .ok ancestry) ↔
      Closed (ancestryGraph rowToSnapshot snapshots snapshot) [snapshot.contentSnapshotId] ∧
        Acyclic (ancestryGraph rowToSnapshot snapshots snapshot) [snapshot.contentSnapshotId]) ∧
    ∀ ancestry, verifySnapshotAncestry rowToSnapshot (some snapshots) snapshot = .ok ancestry →
      ancestry.checked = true ∧ ancestry.snapshotIds.Pairwise (· < ·) ∧
        ∀ contentSnapshotId, contentSnapshotId ∈ ancestry.snapshotIds ↔
          Reaches (ancestryGraph rowToSnapshot snapshots snapshot) snapshot.contentSnapshotId contentSnapshotId := by
  have hempty : Explored (ancestryGraph rowToSnapshot snapshots snapshot) snapshot.contentSnapshotId [] ⟨[], []⟩ :=
    { visiting := rfl, founded := List.forall_mem_nil _, linked := List.forall_mem_nil _, reached := List.forall_mem_nil _ }
  have hplaced : Placed rowToSnapshot snapshots snapshot [] snapshot := .inr (by rw [ancestryGraph, if_pos rfl])
  have hstart : snapshot.contentSnapshotId ∈ [snapshot.contentSnapshotId] := List.mem_singleton_self _
  have hfinished : ancestryWalk rowToSnapshot snapshots (snapshots.rows.length + 2) ⟨[], []⟩ snapshot ≠
      .error .unfinished :=
    ancestryWalk_finished hempty hplaced hstart .refl List.nodup_nil
      (List.forall_mem_singleton.mpr List.mem_cons_self) (Nat.lt_succ_self _)
  rw [verifySnapshotAncestry]
  cases hwalk : ancestryWalk rowToSnapshot snapshots (snapshots.rows.length + 2) ⟨[], []⟩ snapshot with
  | error stop =>
    refine ⟨fun h => hfinished (hwalk.trans ?_), ⟨?_, fun hgraph => ?_⟩, fun ancestry h => by cases h⟩
    · cases h
      rfl
    · rintro ⟨ancestry, h⟩
      cases h
    · cases stop with
      | unfinished => exact absurd hwalk hfinished
      | raised error =>
        obtain ⟨node, hreach, hnode⟩ :=
          ancestryWalk_raised hempty hplaced hstart (List.forall_mem_nil _) .refl hwalk
        rcases hnode with hmissing | hcycle
        · exact absurd hmissing (hgraph.1 _ hstart node hreach)
        · exact absurd hcycle (hgraph.2 _ hstart node hreach)
  | ok marks =>
    obtain ⟨hdone, hroot, _⟩ := ancestryWalk_ok hempty hplaced hstart .refl hwalk
    have hvisited {node : String}
        (h : Reaches (ancestryGraph rowToSnapshot snapshots snapshot) snapshot.contentSnapshotId node) :
        node ∈ marks.validated := by
      induction h with
      | refl => exact hroot
      | tail _ hedge ih =>
        obtain ⟨parents, hparents, hin⟩ := hdone.linked _ ih
        obtain ⟨others, hothers, hmem⟩ := hedge
        cases hparents.symm.trans hothers
        exact hin _ hmem
    refine ⟨(nomatch ·), iff_of_true ⟨_, rfl⟩ ⟨?_, ?_⟩, fun ancestry h => ?_⟩
    · refine List.forall_mem_singleton.mpr fun node hreach hmissing => ?_
      obtain ⟨parents, hparents, _⟩ := hdone.linked node (hvisited hreach)
      cases hmissing.symm.trans hparents
    · exact Founded.acyclic (List.forall_mem_singleton.mpr (hdone.founded _ hroot))
    · cases h
      exact ⟨rfl, ascending_sortedSet _, fun node => mem_sortedSet.trans ⟨hdone.reached node, hvisited⟩⟩

end Exact
end StockContent.Lineage
