import Mathlib.Data.Prod.Lex
import StockContent.Lineage.ArtifactLineage

/-! The lineage that the query service reports for a snapshot: the artifacts it names with all above them, and
the snapshots it comes from. -/
namespace StockContent.Lineage
open Storage

/-- What lineage reads of a snapshot besides its id. -/
structure SnapshotBody (Rest : Type) where
  snapshotKind : String
  parentSnapshotId : Option String
  supersedesSnapshotId : Option String
  artifactIds : List (String × String)
  rest : Rest
  deriving DecidableEq

structure ContentSnapshot (Rest : Type) extends SnapshotBody Rest where
  contentSnapshotId : String
  deriving DecidableEq

structure SnapshotRow (Columns : Type) where
  contentSnapshotId : String
  columns : Columns
  deriving DecidableEq

abbrev SnapshotTable (Columns : Type) := Table (@SnapshotRow.contentSnapshotId Columns)

section Snapshots
variable {Columns Rest E : Type} (rowToSnapshot : SnapshotRow Columns → Except E (SnapshotBody Rest))
  (snapshots : SnapshotTable Columns)

def getSnapshot (contentSnapshotId : String) : Except E (Option (ContentSnapshot Rest)) :=
  match snapshots.get contentSnapshotId with
  | none => .ok none
  | some row => (rowToSnapshot row).map fun body => some { body with contentSnapshotId := row.contentSnapshotId }

/-- The parent and the snapshot that is superseded, once if they are one. -/
def parentIds (item : ContentSnapshot Rest) : List String :=
  ((item.parentSnapshotId.toList ++ item.supersedesSnapshotId.toList).filter (· ≠ "")).eraseDups

def snapshotParents (contentSnapshotId : String) : Option (List String) :=
  match getSnapshot rowToSnapshot snapshots contentSnapshotId with
  | .ok (some item) => some (parentIds item)
  | _ => none

/-- A node of which all parents have trees. -/
def wholeTree {Item : Type} (item : Item) (trees : List (Option (Tree Item))) : Option (Tree Item) :=
  if trees.reduceOption.length ≠ trees.length then none else some (.node item trees.reduceOption)

theorem wholeTree_some {Item : Type} (item : Item) (trees : List (Tree Item)) :
    wholeTree item (trees.map some) = some (.node item trees) := by
  rw [wholeTree, reduceOption_map_some, List.length_map, if_neg (not_not.mpr rfl)]

/-- The tree of a snapshot that was read. -/
def snapshotTree : Nat → List String → ContentSnapshot Rest →
    Except (Stop E) (Option (Tree (ContentSnapshot Rest)) × List String)
  | 0, _, _ => .error .unfinished
  | fuel + 1, visiting, item =>
    if item.contentSnapshotId ∈ visiting then
      .ok (none, ["snapshot lineage cycle detected: " ++ arrow (visiting ++ [item.contentSnapshotId])])
    else do
      let walked ← (parentIds item).mapM fun parentId =>
        match getSnapshot rowToSnapshot snapshots parentId with
        | .error error => .error (.raised error)
        | .ok none =>
          .ok (none, ["snapshot lineage parent missing: " ++ item.contentSnapshotId ++ " -> " ++ parentId])
        | .ok (some parent) => snapshotTree fuel (visiting ++ [item.contentSnapshotId]) parent
      .ok (wholeTree item (walked.map Prod.fst), walked.flatMap Prod.snd)

/-- The same by ids: a parent is read where it is reached. -/
def snapshotWalk : PathWalk String E (ContentSnapshot Rest) String where
  read := getSnapshot rowToSnapshot snapshots
  parents := parentIds
  assemble := wholeTree
  cycle path current := "snapshot lineage cycle detected: " ++ arrow (path ++ [current])
  missing path current := "snapshot lineage parent missing: " ++ path.getLast?.getD "" ++ " -> " ++ current
  assemble_some := wholeTree_some

variable {rowToSnapshot snapshots}

theorem getSnapshot_id {contentSnapshotId : String} {item : ContentSnapshot Rest}
    (h : getSnapshot rowToSnapshot snapshots contentSnapshotId = .ok (some item)) :
    item.contentSnapshotId = contentSnapshotId := by
  rw [getSnapshot] at h
  split at h
  · cases h
  · rename_i row hrow
    cases hbody : rowToSnapshot row with
    | error error =>
      rw [hbody] at h
      cases h
    | ok body =>
      rw [hbody] at h
      have hkey : row.contentSnapshotId = contentSnapshotId := Table.get_key hrow
      rw [← hkey]
      exact (congrArg ContentSnapshot.contentSnapshotId (Option.some_inj.mp (Except.ok.inj h))).symm

theorem stored_of_getSnapshot {contentSnapshotId : String} {item : ContentSnapshot Rest}
    (h : getSnapshot rowToSnapshot snapshots contentSnapshotId = .ok (some item)) :
    contentSnapshotId ∈ snapshots.rows.map (·.contentSnapshotId) := by
  rw [getSnapshot] at h
  split at h
  · cases h
  · rename_i row hrow
    rw [← Table.get_key hrow]
    exact List.mem_map_of_mem (Table.mem_of_get hrow)

/-- Whether a parent is read before its own visit or in it makes no difference while the fuel lasts. -/
theorem snapshotTree_eq {fuel : Nat} {visiting : List String} {item : ContentSnapshot Rest}
    (hitem : getSnapshot rowToSnapshot snapshots item.contentSnapshotId = .ok (some item)) (hn : visiting.Nodup)
    (hvisiting : ∀ id ∈ visiting, ∃ item, getSnapshot rowToSnapshot snapshots id = .ok (some item))
    (hfuel : snapshots.rows.length < fuel + visiting.length) :
    snapshotTree rowToSnapshot snapshots fuel visiting item =
      (snapshotWalk rowToSnapshot snapshots).walk fuel visiting item.contentSnapshotId := by
  induction fuel generalizing visiting item with
  | zero => rfl
  | succ fuel ih =>
    rw [snapshotTree, PathWalk.walk]
    by_cases hmem : item.contentSnapshotId ∈ visiting
    · rw [if_pos hmem, if_pos hmem]
      rfl
    rw [if_neg hmem, if_neg hmem, show (snapshotWalk rowToSnapshot snapshots).read item.contentSnapshotId =
      .ok (some item) from hitem]
    have hn' : (visiting ++ [item.contentSnapshotId]).Nodup :=
      List.nodup_append.mpr ⟨hn, List.nodup_singleton _, by grind⟩
    have hvisiting' : ∀ id ∈ visiting ++ [item.contentSnapshotId],
        ∃ item, getSnapshot rowToSnapshot snapshots id = .ok (some item) := by
      intro id hid
      rcases List.mem_append.mp hid with hid | hid
      · exact hvisiting id hid
      · cases List.mem_singleton.mp hid
        exact ⟨item, hitem⟩
    have hfuel' : snapshots.rows.length < fuel + (visiting ++ [item.contentSnapshotId]).length := by
      rw [List.length_append, List.length_singleton]
      omega
    have hparent (parentId : String) : (match getSnapshot rowToSnapshot snapshots parentId with
        | .error error => .error (.raised error)
        | .ok none =>
          .ok (none, ["snapshot lineage parent missing: " ++ item.contentSnapshotId ++ " -> " ++ parentId])
        | .ok (some parent) =>
          snapshotTree rowToSnapshot snapshots fuel (visiting ++ [item.contentSnapshotId]) parent) =
        (snapshotWalk rowToSnapshot snapshots).walk fuel (visiting ++ [item.contentSnapshotId]) parentId := by
      have hpos : fuel ≠ 0 := by
        rintro rfl
        have hle := length_le_of_nodup hn' fun id hid => (hvisiting' id hid).elim fun _ h => stored_of_getSnapshot h
        rw [List.length_map] at hle
        omega
      obtain ⟨fuel, rfl⟩ := Nat.exists_eq_succ_of_ne_zero hpos
      have hread : (snapshotWalk rowToSnapshot snapshots).read parentId =
          getSnapshot rowToSnapshot snapshots parentId := rfl
      -- what cannot be read is not on the way
      have hunread (h : ∀ item, getSnapshot rowToSnapshot snapshots parentId ≠ .ok (some item)) :
          parentId ∉ visiting ++ [item.contentSnapshotId] := fun hmem => (hvisiting' parentId hmem).elim h
      cases hget : getSnapshot rowToSnapshot snapshots parentId with
      | ok found =>
        cases found with
        | some parent =>
          have hid := getSnapshot_id hget
          rw [← hid] at hget ⊢
          exact ih hget hn' hvisiting' hfuel'
        | none =>
          rw [PathWalk.walk, if_neg (hunread fun other h => by cases hget.symm.trans h), hread, hget]
          refine congrArg Except.ok (Prod.ext rfl ?_)
          change _ = ["snapshot lineage parent missing: " ++
            (visiting ++ [item.contentSnapshotId]).getLast?.getD "" ++ " -> " ++ parentId]
          rw [List.getLast?_append_of_ne_nil _ (List.cons_ne_nil _ _)]
          rfl
      | error error =>
        rw [PathWalk.walk, if_neg (hunread fun other h => by cases hget.symm.trans h), hread, hget]
    simp only [hparent]
    rfl

theorem sameGraph_snapshotParents :
    SameGraph (snapshotWalk rowToSnapshot snapshots).graph (snapshotParents rowToSnapshot snapshots) := by
  have hgraph : (snapshotWalk rowToSnapshot snapshots).graph = snapshotParents rowToSnapshot snapshots := by
    funext node
    rw [PathWalk.graph, snapshotParents,
      show (snapshotWalk rowToSnapshot snapshots).read node = getSnapshot rowToSnapshot snapshots node from rfl]
    rcases getSnapshot rowToSnapshot snapshots node with error | _ | item <;> rfl
  rw [hgraph]
  exact ⟨fun _ => Iff.rfl, fun _ _ => Iff.rfl⟩

/-- The tree of a snapshot is that of a walk from its root. -/
theorem snapshotTree_root {item : ContentSnapshot Rest}
    (hitem : getSnapshot rowToSnapshot snapshots item.contentSnapshotId = .ok (some item)) :
    (∀ error, snapshotTree rowToSnapshot snapshots (snapshots.rows.length + 1) [] item = .error error →
      ∃ node raised, Reaches (snapshotParents rowToSnapshot snapshots) item.contentSnapshotId node ∧
        getSnapshot rowToSnapshot snapshots node = .error raised ∧ error = .raised raised) ∧
    ∀ tree errors, snapshotTree rowToSnapshot snapshots (snapshots.rows.length + 1) [] item = .ok (tree, errors) →
      (errors = [] ↔ Closed (snapshotParents rowToSnapshot snapshots) [item.contentSnapshotId] ∧
        Acyclic (snapshotParents rowToSnapshot snapshots) [item.contentSnapshotId]) ∧
      (errors = [] → ∃ whole, tree = some whole ∧
        PathWalk.Whole (snapshotWalk rowToSnapshot snapshots) item.contentSnapshotId whole) := by
  have hsame : SameGraph (snapshotWalk rowToSnapshot snapshots).graph (snapshotParents rowToSnapshot snapshots) :=
    sameGraph_snapshotParents
  have hroot := PathWalk.walk_root (snapshotWalk rowToSnapshot snapshots) (snapshots.rows.map (·.contentSnapshotId))
    (fun node item h => stored_of_getSnapshot h) item.contentSnapshotId
  rw [List.length_map] at hroot
  rw [snapshotTree_eq hitem List.nodup_nil (fun id hid => by cases hid) (Nat.lt_succ_self _)]
  rw [← hsame.closed, ← hsame.acyclic, Reaches, ← hsame.isParent_eq]
  exact hroot

end Snapshots

section Service
variable {A Payload S Rest E : Type} (services : ArtifactServices A Payload E)
  (artifactRepository : Option (ArtifactTable A)) (rowToSnapshot : SnapshotRow S → Except E (SnapshotBody Rest))
  (snapshots : SnapshotTable S)

/-- The walk of `artifact_tree`: a tree only where all parents have theirs. -/
def artifactWalk (rows : ArtifactTable A) (contentSnapshotId : String) :
    PathWalk String E (Artifact Payload) String where
  read := getArtifact services rows
  parents artifact := sortedSet artifact.parentArtifactIds
  assemble := wholeTree
  cycle path current := "artifact lineage cycle detected: " ++ arrow (path ++ [current])
  missing path current := "artifact lineage missing: " ++ path.getLast?.getD contentSnapshotId ++ " -> " ++ current
  assemble_some := wholeTree_some

def artifactTree (contentSnapshotId artifactId : String) :
    Except (Stop E) (Option (Tree (Artifact Payload)) × List String) :=
  match artifactRepository with
  | none => .ok (none, ["artifact lineage repository unavailable"])
  | some rows => (artifactWalk services rows contentSnapshotId).walk (rows.rows.length + 1) [] artifactId

/-- The artifacts with their parents; without a repository there are none. -/
def artifactGraph (artifactId : String) : Option (List String) :=
  artifactRepository.bind fun rows => artifactParents services rows artifactId

structure SnapshotLineage (Payload Rest : Type) where
  snapshot : ContentSnapshot Rest
  artifacts : List (String × Tree (Artifact Payload))
  snapshotLineage : Option (Tree (ContentSnapshot Rest))
  lineageComplete : Bool
  lineageErrors : List String

def artifactRefs (snapshot : ContentSnapshot Rest) : List (String × String) :=
  snapshot.artifactIds.insertionSort fun a b => toLex a ≤ toLex b

/-- The trees of the artifacts a snapshot names, by slot. -/
def artifactItems (snapshot : ContentSnapshot Rest) :
    Except (Stop E) (List (Option (String × Tree (Artifact Payload)) × List String)) :=
  (artifactRefs snapshot).mapM fun ref => do
    let (tree, errors) ← artifactTree services artifactRepository snapshot.contentSnapshotId ref.2
    .ok (tree.map fun tree => (ref.1, tree), errors)

def snapshotReport (snapshot : ContentSnapshot Rest)
    (items : List (Option (String × Tree (Artifact Payload)) × List String))
    (tree : Option (Tree (ContentSnapshot Rest))) (treeErrors : List String) : SnapshotLineage Payload Rest :=
  let lineageErrors := items.flatMap Prod.snd ++ treeErrors
  let lineageComplete := lineageErrors.isEmpty
  { snapshot := snapshot
    artifacts := if lineageComplete then (items.map Prod.fst).reduceOption else []
    snapshotLineage := if lineageComplete then tree else none
    lineageComplete := lineageComplete
    lineageErrors := sortedSet lineageErrors }

def getSnapshotLineage (contentSnapshotId : String) : Except (Stop E) (Option (SnapshotLineage Payload Rest)) :=
  match getSnapshot rowToSnapshot snapshots contentSnapshotId with
  | .error error => .error (.raised error)
  | .ok none => .ok none
  | .ok (some snapshot) => do
    let items ← artifactItems services artifactRepository snapshot
    let (tree, errors) ← snapshotTree rowToSnapshot snapshots (snapshots.rows.length + 1) [] snapshot
    .ok (some (snapshotReport snapshot items tree errors))

variable {services artifactRepository rowToSnapshot snapshots}

theorem artifactTree_root (services : ArtifactServices A Payload E) (artifactRepository : Option (ArtifactTable A))
    (contentSnapshotId artifactId : String) :
    (∀ error, artifactTree services artifactRepository contentSnapshotId artifactId = .error error →
      ∃ rows ∈ artifactRepository, ∃ node raised,
        Reaches (artifactGraph services artifactRepository) artifactId node ∧
        getArtifact services rows node = .error raised ∧ error = .raised raised) ∧
    ∀ tree errors, artifactTree services artifactRepository contentSnapshotId artifactId = .ok (tree, errors) →
      (errors = [] ↔ Closed (artifactGraph services artifactRepository) [artifactId] ∧
        Acyclic (artifactGraph services artifactRepository) [artifactId]) ∧
      (errors = [] → ∃ rows ∈ artifactRepository, ∃ whole, tree = some whole ∧
        PathWalk.Whole (artifactWalk services rows contentSnapshotId) artifactId whole) := by
  cases artifactRepository with
  | none =>
    refine ⟨fun error h => (by cases h), ?_⟩
    rintro tree errors ⟨⟩
    refine ⟨iff_of_false (List.cons_ne_nil _ _) ?_, fun h => absurd h (List.cons_ne_nil _ _)⟩
    rintro ⟨hclosed, _⟩
    exact hclosed artifactId List.mem_cons_self artifactId .refl rfl
  | some rows =>
    have hsame := sameGraph_artifactParents (artifactWalk services rows contentSnapshotId) rfl
      fun artifact parent => mem_sortedSet
    obtain ⟨hraised, hwalk⟩ := PathWalk.walk_root (artifactWalk services rows contentSnapshotId)
      (rows.rows.map (·.artifactId)) (fun node artifact h => stored_of_getArtifact h) artifactId
    rw [List.length_map] at hraised hwalk
    have hgraph : artifactGraph services (some rows) = artifactParents services rows := rfl
    rw [hgraph]
    constructor
    · intro error h
      obtain ⟨node, raised, hreach, hread, herror⟩ := hraised error h
      rw [Reaches, hsame.isParent_eq] at hreach
      exact ⟨rows, rfl, node, raised, hreach, hread, herror⟩
    · intro tree errors h
      obtain ⟨hclean, hwhole⟩ := hwalk tree errors h
      rw [hsame.closed, hsame.acyclic] at hclean
      exact ⟨hclean, fun herrors => ⟨rows, rfl, hwhole herrors⟩⟩

/-- Each reference with its item, when none of them recorded an error. -/
theorem artifactItems_spec {snapshot : ContentSnapshot Rest}
    {items : List (Option (String × Tree (Artifact Payload)) × List String)}
    (h : artifactItems services artifactRepository snapshot = .ok items) :
    (items.flatMap Prod.snd = [] ↔
      Closed (artifactGraph services artifactRepository) (snapshot.artifactIds.map Prod.snd) ∧
      Acyclic (artifactGraph services artifactRepository) (snapshot.artifactIds.map Prod.snd)) ∧
    (items.flatMap Prod.snd = [] →
      List.Forall₂ (fun ref item => item.1 = ref.1 ∧ ∃ rows ∈ artifactRepository,
        PathWalk.Whole (artifactWalk services rows snapshot.contentSnapshotId) ref.2 item.2)
        (artifactRefs snapshot) (items.map Prod.fst).reduceOption) := by
  have hmem (artifactId : String) :
      artifactId ∈ snapshot.artifactIds.map Prod.snd ↔ artifactId ∈ (artifactRefs snapshot).map Prod.snd := by
    rw [artifactRefs, List.mem_map, List.mem_map]
    simp only [List.mem_insertionSort]
  rw [closed_iff, acyclic_iff]
  simp only [hmem]
  rw [artifactItems, mapM_eq_ok_iff] at h
  generalize artifactRefs snapshot = refs at h ⊢
  induction h with
  | nil => exact ⟨iff_of_true rfl ⟨fun id hid => (by cases hid), fun id hid => (by cases hid)⟩, fun _ => .nil⟩
  | @cons ref item refs items hitem _ ih =>
    obtain ⟨⟨tree, errors⟩, htree, hitem⟩ := bind_eq_ok.mp hitem
    cases hitem
    obtain ⟨hclean, hall⟩ := (artifactTree_root services artifactRepository snapshot.contentSnapshotId ref.2).2 tree
      errors htree
    rw [List.flatMap_cons, List.append_eq_nil_iff, List.map_cons, List.forall_mem_cons, List.forall_mem_cons, hclean]
    refine ⟨?_, ?_⟩
    · rw [ih.1]
      tauto
    · rintro ⟨herrors, hrest⟩
      obtain ⟨rows, hrows, whole, rfl, hwhole⟩ := hall (hclean.mpr herrors)
      exact .cons ⟨rfl, rows, hrows, hwhole⟩ (ih.2 hrest)

theorem artifactItems_raised {snapshot : ContentSnapshot Rest} {error : Stop E}
    (h : artifactItems services artifactRepository snapshot = .error error) :
    ∃ rows ∈ artifactRepository, ∃ node raised,
      getArtifact services rows node = .error raised ∧ error = .raised raised := by
  obtain ⟨ref, _, href⟩ := mapM_eq_error h
  cases htree : artifactTree services artifactRepository snapshot.contentSnapshotId ref.2 with
  | ok result =>
    rw [htree] at href
    cases href
  | error other =>
    rw [htree] at href
    cases href
    obtain ⟨rows, hrows, node, raised, _, hread, herror⟩ :=
      (artifactTree_root services artifactRepository snapshot.contentSnapshotId ref.2).1 error htree
    exact ⟨rows, hrows, node, raised, hread, herror⟩

/-- What the lineage of a snapshot says of the graphs above it. -/
structure SnapshotLineageExact (services : ArtifactServices A Payload E)
    (artifactRepository : Option (ArtifactTable A)) (rowToSnapshot : SnapshotRow S → Except E (SnapshotBody Rest))
    (snapshots : SnapshotTable S) (contentSnapshotId : String) : Prop where
  finishes : getSnapshotLineage services artifactRepository rowToSnapshot snapshots contentSnapshotId ≠
    .error .unfinished
  returns : (∀ rows ∈ artifactRepository, ∀ row ∈ rows.rows, ∃ artifact, openRow services row = .ok artifact) →
    (∀ row ∈ snapshots.rows, ∃ body, rowToSnapshot row = .ok body) →
    ∃ report, getSnapshotLineage services artifactRepository rowToSnapshot snapshots contentSnapshotId = .ok report
  absent : getSnapshotLineage services artifactRepository rowToSnapshot snapshots contentSnapshotId = .ok none ↔
    getSnapshot rowToSnapshot snapshots contentSnapshotId = .ok none
  complete : ∀ report,
    getSnapshotLineage services artifactRepository rowToSnapshot snapshots contentSnapshotId = .ok (some report) →
    (report.lineageComplete = true ↔
      (Closed (artifactGraph services artifactRepository) (report.snapshot.artifactIds.map Prod.snd) ∧
        Acyclic (artifactGraph services artifactRepository) (report.snapshot.artifactIds.map Prod.snd)) ∧
      Closed (snapshotParents rowToSnapshot snapshots) [contentSnapshotId] ∧
      Acyclic (snapshotParents rowToSnapshot snapshots) [contentSnapshotId])
  whole : ∀ report,
    getSnapshotLineage services artifactRepository rowToSnapshot snapshots contentSnapshotId = .ok (some report) →
    report.lineageComplete = true →
    List.Forall₂ (fun ref item => item.1 = ref.1 ∧ ∃ rows ∈ artifactRepository,
      PathWalk.Whole (artifactWalk services rows contentSnapshotId) ref.2 item.2)
      (artifactRefs report.snapshot) report.artifacts ∧
    ∃ tree, report.snapshotLineage = some tree ∧
      PathWalk.Whole (snapshotWalk rowToSnapshot snapshots) contentSnapshotId tree
  incomplete : ∀ report,
    getSnapshotLineage services artifactRepository rowToSnapshot snapshots contentSnapshotId = .ok (some report) →
    report.lineageComplete = false → report.artifacts = [] ∧ report.snapshotLineage = none

variable (services artifactRepository rowToSnapshot snapshots) in
/-- How the lineage of a snapshot comes out. -/
inductive LineageOutcome (contentSnapshotId : String) :
    Except (Stop E) (Option (SnapshotLineage Payload Rest)) → Prop
  | unreadable {error : E} (hget : getSnapshot rowToSnapshot snapshots contentSnapshotId = .error error) :
      LineageOutcome contentSnapshotId (.error (.raised error))
  | absent (hget : getSnapshot rowToSnapshot snapshots contentSnapshotId = .ok none) :
      LineageOutcome contentSnapshotId (.ok none)
  | artifactsStopped {snapshot : ContentSnapshot Rest} {stop : Stop E}
      (hget : getSnapshot rowToSnapshot snapshots contentSnapshotId = .ok (some snapshot))
      (hitems : artifactItems services artifactRepository snapshot = .error stop) :
      LineageOutcome contentSnapshotId (.error stop)
  | snapshotsStopped {snapshot : ContentSnapshot Rest} {stop : Stop E}
      (hget : getSnapshot rowToSnapshot snapshots contentSnapshotId = .ok (some snapshot))
      (htree : snapshotTree rowToSnapshot snapshots (snapshots.rows.length + 1) [] snapshot = .error stop) :
      LineageOutcome contentSnapshotId (.error stop)
  | reported {snapshot : ContentSnapshot Rest} {tree : Option (Tree (ContentSnapshot Rest))} {errors : List String}
      {items : List (Option (String × Tree (Artifact Payload)) × List String)}
      (hget : getSnapshot rowToSnapshot snapshots contentSnapshotId = .ok (some snapshot))
      (hitems : artifactItems services artifactRepository snapshot = .ok items)
      (htree : snapshotTree rowToSnapshot snapshots (snapshots.rows.length + 1) [] snapshot = .ok (tree, errors)) :
      LineageOutcome contentSnapshotId (.ok (some (snapshotReport snapshot items tree errors)))

theorem getSnapshotLineage_outcome (services : ArtifactServices A Payload E)
    (artifactRepository : Option (ArtifactTable A)) (rowToSnapshot : SnapshotRow S → Except E (SnapshotBody Rest))
    (snapshots : SnapshotTable S) (contentSnapshotId : String) :
    LineageOutcome services artifactRepository rowToSnapshot snapshots contentSnapshotId
      (getSnapshotLineage services artifactRepository rowToSnapshot snapshots contentSnapshotId) := by
  rw [getSnapshotLineage]
  cases hget : getSnapshot rowToSnapshot snapshots contentSnapshotId with
  | error error => exact .unreadable hget
  | ok found =>
    cases found with
    | none => exact .absent hget
    | some snapshot =>
      change LineageOutcome _ _ _ _ _ (artifactItems services artifactRepository snapshot >>= fun items =>
        snapshotTree rowToSnapshot snapshots (snapshots.rows.length + 1) [] snapshot >>= fun walked =>
          .ok (some (snapshotReport snapshot items walked.1 walked.2)))
      cases hitems : artifactItems services artifactRepository snapshot with
      | error stop => exact .artifactsStopped hget hitems
      | ok items =>
        cases htree : snapshotTree rowToSnapshot snapshots (snapshots.rows.length + 1) [] snapshot with
        | error stop => exact .snapshotsStopped hget htree
        | ok walked => exact .reported hget hitems htree

/-- Where a snapshot's lineage is raised from. -/
theorem getSnapshotLineage_raised {contentSnapshotId : String} {error : Stop E}
    (h : getSnapshotLineage services artifactRepository rowToSnapshot snapshots contentSnapshotId = .error error) :
    ∃ raised, error = .raised raised ∧
      ((∃ rows ∈ artifactRepository, ∃ node, getArtifact services rows node = .error raised) ∨
        ∃ node, getSnapshot rowToSnapshot snapshots node = .error raised) := by
  have houtcome := getSnapshotLineage_outcome services artifactRepository rowToSnapshot snapshots contentSnapshotId
  rw [h] at houtcome
  cases houtcome with
  | unreadable hget => exact ⟨_, rfl, .inr ⟨contentSnapshotId, hget⟩⟩
  | artifactsStopped hget hitems =>
    obtain ⟨rows, hrows, node, raised, hread, herror⟩ := artifactItems_raised hitems
    exact ⟨raised, herror, .inl ⟨rows, hrows, node, hread⟩⟩
  | snapshotsStopped hget htree =>
    have hid := getSnapshot_id hget
    rw [← hid] at hget
    obtain ⟨node, raised, _, hread, herror⟩ := (snapshotTree_root hget).1 error htree
    exact ⟨raised, herror, .inr ⟨node, hread⟩⟩

theorem getSnapshotLineage_none {contentSnapshotId : String} :
    getSnapshotLineage services artifactRepository rowToSnapshot snapshots contentSnapshotId = .ok none ↔
      getSnapshot rowToSnapshot snapshots contentSnapshotId = .ok none := by
  constructor
  · intro h
    have houtcome := getSnapshotLineage_outcome services artifactRepository rowToSnapshot snapshots contentSnapshotId
    rw [h] at houtcome
    cases houtcome with
    | absent hget => exact hget
  · intro h
    rw [getSnapshotLineage, h]

theorem getSnapshot_ok (h : ∀ row ∈ snapshots.rows, ∃ body, rowToSnapshot row = .ok body) (node : String) :
    ∃ found, getSnapshot rowToSnapshot snapshots node = .ok found := by
  rw [getSnapshot]
  cases hrow : snapshots.get node with
  | none => exact ⟨none, rfl⟩
  | some row =>
    obtain ⟨body, hbody⟩ := h row (Table.mem_of_get hrow)
    exact ⟨_, congrArg (Except.map _) hbody⟩

/-- A report with what was walked for it. -/
theorem getSnapshotLineage_some {contentSnapshotId : String} {report : SnapshotLineage Payload Rest}
    (h : getSnapshotLineage services artifactRepository rowToSnapshot snapshots contentSnapshotId =
      .ok (some report)) :
    ∃ items tree errors, report = snapshotReport report.snapshot items tree errors ∧
      report.snapshot.contentSnapshotId = contentSnapshotId ∧
      artifactItems services artifactRepository report.snapshot = .ok items ∧
      (errors = [] ↔ Closed (snapshotParents rowToSnapshot snapshots) [contentSnapshotId] ∧
        Acyclic (snapshotParents rowToSnapshot snapshots) [contentSnapshotId]) ∧
      (errors = [] → ∃ whole, tree = some whole ∧
        PathWalk.Whole (snapshotWalk rowToSnapshot snapshots) contentSnapshotId whole) := by
  have houtcome := getSnapshotLineage_outcome services artifactRepository rowToSnapshot snapshots contentSnapshotId
  rw [h] at houtcome
  cases houtcome with
  | reported hget hitems htree =>
    obtain rfl := getSnapshot_id hget
    exact ⟨_, _, _, rfl, rfl, hitems, (snapshotTree_root hget).2 _ _ htree⟩

theorem lineageComplete_iff {items : List (Option (String × Tree (Artifact Payload)) × List String)}
    {errors : List String} {snapshot : ContentSnapshot Rest} {tree : Option (Tree (ContentSnapshot Rest))} :
    (snapshotReport snapshot items tree errors).lineageComplete = true ↔
      items.flatMap Prod.snd = [] ∧ errors = [] := by
  rw [snapshotReport, List.isEmpty_iff, List.append_eq_nil_iff]

/-- The lineage of a snapshot is exact on every store. -/
theorem snapshotLineage_exact (services : ArtifactServices A Payload E)
    (artifactRepository : Option (ArtifactTable A)) (rowToSnapshot : SnapshotRow S → Except E (SnapshotBody Rest))
    (snapshots : SnapshotTable S) (contentSnapshotId : String) :
    SnapshotLineageExact services artifactRepository rowToSnapshot snapshots contentSnapshotId := by
  constructor
  · intro h
    obtain ⟨raised, hraised, _⟩ := getSnapshotLineage_raised h
    cases hraised
  · intro hrows hsnapshots
    cases h : getSnapshotLineage services artifactRepository rowToSnapshot snapshots contentSnapshotId with
    | ok report => exact ⟨report, rfl⟩
    | error error =>
      obtain ⟨raised, _, ⟨rows, hmem, node, hread⟩ | ⟨node, hread⟩⟩ := getSnapshotLineage_raised h
      · obtain ⟨found, hfound⟩ := getArtifact_ok rows (hrows rows hmem) node
        cases hread.symm.trans hfound
      · obtain ⟨found, hfound⟩ := getSnapshot_ok hsnapshots node
        cases hread.symm.trans hfound
  · exact getSnapshotLineage_none
  · intro report h
    obtain ⟨items, tree, errors, heq, hid, hitems, hclean, _⟩ := getSnapshotLineage_some h
    rw [heq, lineageComplete_iff, hclean, (artifactItems_spec hitems).1]
    rfl
  · intro report h hall
    obtain ⟨items, tree, errors, heq, rfl, hitems, _, hwhole⟩ := getSnapshotLineage_some h
    rw [heq] at hall
    obtain ⟨hclean, herrors⟩ := lineageComplete_iff.mp hall
    obtain ⟨whole, htree, hwhole⟩ := hwhole herrors
    have hartifacts : report.artifacts = (items.map Prod.fst).reduceOption := by
      rw [heq]
      exact if_pos hall
    have htrees : report.snapshotLineage = tree := by
      rw [heq]
      exact if_pos hall
    rw [hartifacts, htrees]
    exact ⟨(artifactItems_spec hitems).2 hclean, whole, htree, hwhole⟩
  · intro report h hnot
    obtain ⟨items, tree, errors, heq, _⟩ := getSnapshotLineage_some h
    rw [heq] at hnot ⊢
    exact ⟨if_neg (Bool.eq_false_iff.mp hnot), if_neg (Bool.eq_false_iff.mp hnot)⟩

/-- The lineage of an artifact and that of a snapshot end on every store and are exact: complete when the graph
above the roots has no missing node and no cycle, then with the whole trees, and otherwise with none of them. -/
theorem lineage_complete_exact (services : ArtifactServices A Payload E)
    (rowToSnapshot : SnapshotRow S → Except E (SnapshotBody Rest)) :
    (∀ rows artifactId, LineageExact services rows artifactId) ∧
    ∀ artifactRepository snapshots contentSnapshotId,
      SnapshotLineageExact services artifactRepository rowToSnapshot snapshots contentSnapshotId :=
  ⟨fun rows artifactId => lineage_exact services rows artifactId,
    fun artifactRepository snapshots contentSnapshotId =>
      snapshotLineage_exact services artifactRepository rowToSnapshot snapshots contentSnapshotId⟩

end Service
end StockContent.Lineage
