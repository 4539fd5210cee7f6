import StockContent.Lineage.ArtifactLineage
import StockContent.Lineage.Worklist

/-! What a snapshot store checks of the artifacts a snapshot names before it accepts the snapshot. -/
namespace StockContent.Lineage
open Storage

structure ContentArtifactEdgeRow where
  edgeId : String
  artifactId : String
  parentArtifactId : String
  relation : String
  deriving DecidableEq

abbrev EdgeTable := Table ContentArtifactEdgeRow.edgeId

structure ArtifactStore (Columns : Type) where
  artifacts : ArtifactTable Columns
  edges : EdgeTable

def v1SchemaVersion : String := "content.snapshot.v1"

def v2SchemaVersion : String := "content.snapshot.v2"

def validationBatchSize : Nat := 500

section Check
variable {Columns Payload E : Type} (services : ArtifactServices Columns Payload E) (digest : String → String)

def parentEdge (artifactId parentId : String) : ContentArtifactEdgeRow where
  edgeId := digest (artifactId ++ ":" ++ parentId)
  artifactId := artifactId
  parentArtifactId := parentId
  relation := "PARENT"

def sameSet {A : Type} (xs ys : List A) : Prop := xs ⊆ ys ∧ ys ⊆ xs

instance {A : Type} [DecidableEq A] (xs ys : List A) : Decidable (sameSet xs ys) :=
  inferInstanceAs (Decidable (_ ∧ _))

/-- One artifact with its row and its edges as they were read. Where a legacy snapshot names an artifact that is
missing it is passed over. -/
def checkArtifact (legacy : Bool) (snapshotId artifactId : String) (row : Option (ContentArtifactRow Columns))
    (edges : List ContentArtifactEdgeRow) : Except String (Option (List String)) :=
  match row with
  | none =>
    if legacy then .ok none
    else .error ("snapshot " ++ snapshotId ++ " references missing artifact " ++ artifactId)
  | some row =>
    match openRow services row with
    | .error _ => .error ("snapshot " ++ snapshotId ++ " references invalid artifact " ++ artifactId)
    | .ok _ =>
      let expectedEdges := row.parentArtifactIds.map (parentEdge digest artifactId)
      if edges ≠ [] ∧ ¬ sameSet edges expectedEdges then
        .error ("snapshot " ++ snapshotId ++ " artifact parent edges are inconsistent for " ++ artifactId)
      else if edges = [] ∧ legacy = false ∧ expectedEdges ≠ [] then
        .error ("snapshot " ++ snapshotId ++ " artifact parent edges are missing for " ++ artifactId)
      else .ok (some row.parentArtifactIds)

/-- The rows and edges of a batch come from one query each; an artifact is checked against its own. -/
def readArtifact (store : ArtifactStore Columns) (legacy : Bool) (snapshotId : String) (batch : List String)
    (artifactId : String) : Except String (Option (List String)) :=
  let rowsById := store.artifacts.rows.filter (·.artifactId ∈ batch)
  let edges := store.edges.rows.filter (·.artifactId ∈ batch)
  checkArtifact services digest legacy snapshotId artifactId (rowsById.find? (·.artifactId = artifactId))
    (edges.filter (·.artifactId = artifactId))

/-- The ids a snapshot and the rows of a store name. -/
def namedIds (store : ArtifactStore Columns) (roots : List String) : List String :=
  roots ++ store.artifacts.rows.flatMap (·.parentArtifactIds)

def validateSnapshotArtifacts (store : ArtifactStore Columns) (batchSize : Nat) (artifactIds : List (String × String))
    (schemaVersion snapshotId : String) : Except (Stop String) Unit := do
  let legacy := schemaVersion == v1SchemaVersion
  let roots := artifactIds.map Prod.snd
  let c ← closeFrontier (readArtifact services digest store legacy snapshotId) batchSize
    ((namedIds store roots).length + 1) (.start roots)
  let cycle artifactId := "snapshot " ++ snapshotId ++ " artifact parent cycle includes " ++ artifactId
  let _ ← roots.foldlM (validateClosure cycle (parentsOf c.parents) (c.parents.length + 1)) ⟨[], []⟩
  .ok ()

/-- The parents of the artifacts that are stored. -/
def storedParents (store : ArtifactStore Columns) (artifactId : String) : Option (List String) :=
  (store.artifacts.get artifactId).map (·.parentArtifactIds)

/-- An artifact that is stored and valid, and whose recorded edges are those to its parents. -/
def Sound (store : ArtifactStore Columns) (artifactId : String) : Prop :=
  ∃ row, store.artifacts.get artifactId = some row ∧ (∃ artifact, openRow services row = .ok artifact) ∧
    ∀ edge, edge ∈ store.edges.rows ∧ edge.artifactId = artifactId ↔
      edge ∈ row.parentArtifactIds.map (parentEdge digest artifactId)

structure ArtifactClosure (store : ArtifactStore Columns) (roots : List String) : Prop where
  sound : ∀ root ∈ roots, ∀ node, Reaches (storedParents store) root node → Sound services digest store node
  acyclic : Acyclic (storedParents store) roots

variable {services digest} {store : ArtifactStore Columns} {snapshotId : String}

/-- Only the transport of rows and edges depends on the batch. -/
theorem readArtifact_batch (legacy : Bool) (batch : List String) (artifactId : String) (h : artifactId ∈ batch) :
    readArtifact services digest store legacy snapshotId batch artifactId =
      checkArtifact services digest legacy snapshotId artifactId (store.artifacts.get artifactId)
        (store.edges.rows.filter (·.artifactId = artifactId)) := by
  have hrows : (store.artifacts.rows.filter (·.artifactId ∈ batch)).find? (·.artifactId = artifactId) =
      store.artifacts.get artifactId := by
    rw [List.find?_filter, Table.get]
    congr 1
    funext row
    by_cases hrow : row.artifactId = artifactId <;> simp [hrow, h]
  have hedges : (store.edges.rows.filter (·.artifactId ∈ batch)).filter (·.artifactId = artifactId) =
      store.edges.rows.filter (·.artifactId = artifactId) := by
    rw [List.filter_filter]
    congr 1
    funext edge
    by_cases hedge : edge.artifactId = artifactId <;> simp [hedge, h]
  rw [readArtifact, hrows, hedges]

theorem sameSet_iff {A : Type} {xs ys : List A} : sameSet xs ys ↔ ∀ x, x ∈ xs ↔ x ∈ ys :=
  ⟨fun h _ => ⟨fun hx => h.1 hx, fun hx => h.2 hx⟩, fun h => ⟨fun _ hx => (h _).mp hx, fun _ hx => (h _).mpr hx⟩⟩

/-- For a snapshot that is not legacy, the two comparisons of edges are one. -/
theorem checkArtifact_row {row : ContentArtifactRow Columns} {artifact : Artifact Payload} {artifactId : String}
    {edges : List ContentArtifactEdgeRow} (hopen : openRow services row = .ok artifact) :
    (sameSet edges (row.parentArtifactIds.map (parentEdge digest artifactId)) ∧
      checkArtifact services digest false snapshotId artifactId (some row) edges = .ok (some row.parentArtifactIds)) ∨
    (¬ sameSet edges (row.parentArtifactIds.map (parentEdge digest artifactId)) ∧
      ∃ message, checkArtifact services digest false snapshotId artifactId (some row) edges = .error message) := by
  rw [checkArtifact, hopen]
  dsimp only
  by_cases hsame : sameSet edges (row.parentArtifactIds.map (parentEdge digest artifactId))
  · refine .inl ⟨hsame, ?_⟩
    rw [if_neg fun h => h.2 hsame, if_neg]
    rintro ⟨rfl, _, hne⟩
    exact hne (List.eq_nil_of_subset_nil hsame.2)
  · refine .inr ⟨hsame, ?_⟩
    by_cases hedges : edges = []
    · have hne : row.parentArtifactIds.map (parentEdge digest artifactId) ≠ [] := by
        intro hnil
        refine hsame ?_
        rw [hedges, hnil]
        exact ⟨List.Subset.refl [], List.Subset.refl []⟩
      rw [if_neg fun h => h.1 hedges, if_pos ⟨hedges, rfl, hne⟩]
      exact ⟨_, rfl⟩
    · rw [if_pos ⟨hedges, hsame⟩]
      exact ⟨_, rfl⟩

/-- What is read of an artifact of a snapshot that is not legacy: its parents when it is sound, else an error. -/
theorem readArtifact_cases (services : ArtifactServices Columns Payload E) (digest : String → String)
    (store : ArtifactStore Columns) (snapshotId artifactId : String) :
    (Sound services digest store artifactId ∧ ∃ parents, storedParents store artifactId = some parents ∧
      readArtifact services digest store false snapshotId [artifactId] artifactId = .ok (some parents)) ∨
    (¬ Sound services digest store artifactId ∧ ∃ message,
      readArtifact services digest store false snapshotId [artifactId] artifactId = .error message) := by
  rw [readArtifact_batch false [artifactId] artifactId List.mem_cons_self]
  cases hrow : store.artifacts.get artifactId with
  | none =>
    refine .inr ⟨?_, _, rfl⟩
    rintro ⟨row, hget, _⟩
    cases hrow.symm.trans hget
  | some row =>
    cases hopen : openRow services row with
    | error error =>
      refine .inr ⟨?_, "snapshot " ++ snapshotId ++ " references invalid artifact " ++ artifactId, ?_⟩
      · rintro ⟨other, hget, ⟨artifact, hartifact⟩, _⟩
        cases hrow.symm.trans hget
        cases hopen.symm.trans hartifact
      · rw [checkArtifact, hopen]
    | ok artifact =>
      have hsound : Sound services digest store artifactId ↔
          sameSet (store.edges.rows.filter (·.artifactId = artifactId))
            (row.parentArtifactIds.map (parentEdge digest artifactId)) := by
        rw [sameSet_iff]
        constructor
        · rintro ⟨other, hget, _, hedges⟩ edge
          cases hrow.symm.trans hget
          rw [← hedges edge, List.mem_filter, decide_eq_true_eq]
        · intro hedges
          refine ⟨row, hrow, ⟨artifact, hopen⟩, fun edge => ?_⟩
          rw [← hedges edge, List.mem_filter, decide_eq_true_eq]
      rw [hsound]
      refine (checkArtifact_row hopen).imp_left ?_
      rintro ⟨hsame, hcheck⟩
      exact ⟨hsame, row.parentArtifactIds, by rw [storedParents, hrow]; rfl, hcheck⟩

/-- What is read follows the stored parents, and all of them where artifacts are sound. -/
theorem isParent_readGraph {artifactId parent : String} :
    IsParent (readGraph (readArtifact services digest store false snapshotId)) artifactId parent ↔
      Sound services digest store artifactId ∧ IsParent (storedParents store) artifactId parent := by
  rcases readArtifact_cases services digest store snapshotId artifactId with
    ⟨hsound, parents, hstored, hread⟩ | ⟨hsound, message, hread⟩
  · have hgraph : readGraph (readArtifact services digest store false snapshotId) artifactId = some parents := by
      rw [readGraph, hread]
    rw [IsParent, IsParent, hgraph, hstored, and_iff_right hsound]
  · have hgraph : readGraph (readArtifact services digest store false snapshotId) artifactId = none := by
      rw [readGraph, hread]
    rw [IsParent, hgraph]
    refine iff_of_false ?_ fun h => hsound h.1
    rintro ⟨parents, hsome, _⟩
    cases hsome

theorem confined_namedIds (services : ArtifactServices Columns Payload E) (digest : String → String)
    (store : ArtifactStore Columns) (snapshotId : String) (roots : List String) :
    Confined (readArtifact services digest store false snapshotId) roots (namedIds store roots) where
  roots root hroot := List.mem_append_left _ hroot
  parents artifactId parent hparent := by
    obtain ⟨parents, hstored, hmem⟩ := (isParent_readGraph.mp hparent).2
    obtain ⟨row, hrow, rfl⟩ := Option.map_eq_some_iff.mp hstored
    exact List.mem_append_right _ (List.mem_flatMap.mpr ⟨row, Table.mem_of_get hrow, hmem⟩)

/-- After the worklist the recorded graph is the stored one, as far as the roots reach. -/
theorem recorded_above {roots done : List String} {c : Worklist String}
    (hdone : ∀ node, node ∈ done ↔
      ∃ root ∈ roots, Reaches (readGraph (readArtifact services digest store false snapshotId)) root node)
    (hreadable : ∀ node ∈ done, ∃ found, readArtifact services digest store false snapshotId [node] node = .ok found)
    (hparents : c.parents = done.filterMap fun node =>
      (readGraph (readArtifact services digest store false snapshotId) node).map fun parents => (node, parents)) :
    (∀ root ∈ roots, ∀ node, Reaches (storedParents store) root node → Sound services digest store node) ∧
    (Acyclic (parentsOf c.parents) roots ↔ Acyclic (storedParents store) roots) := by
  have hedge (a b : String) : IsParent (parentsOf c.parents) a b ↔
      a ∈ done ∧ IsParent (readGraph (readArtifact services digest store false snapshotId)) a b := by
    rw [IsParent, hparents, parentsOf_filterMap]
    by_cases ha : a ∈ done
    · rw [if_pos ha, and_iff_right ha]
      rfl
    · rw [if_neg ha]
      refine iff_of_false ?_ fun h => ha h.1
      rintro ⟨parents, hsome, _⟩
      cases hsome
  have hsound : ∀ node ∈ done, Sound services digest store node := by
    intro node hnode
    obtain ⟨found, hfound⟩ := hreadable node hnode
    rcases readArtifact_cases services digest store snapshotId node with ⟨hsound, _⟩ | ⟨_, message, hbad⟩
    · exact hsound
    · cases hfound.symm.trans hbad
  have hmem {root node : String} (hroot : root ∈ roots) (hreach : Reaches (parentsOf c.parents) root node) :
      node ∈ done :=
    (hdone node).mpr ⟨root, hroot, Relation.ReflTransGen.mono (fun a b h => ((hedge a b).mp h).2) _ _ hreach⟩
  obtain ⟨hreach, hacyclic⟩ : (∀ root ∈ roots, ∀ a, Reaches (parentsOf c.parents) root a ↔
      Reaches (storedParents store) root a) ∧
      (Acyclic (parentsOf c.parents) roots ↔ Acyclic (storedParents store) roots) := by
    refine above_iff (fun a b h => (isParent_readGraph.mp ((hedge a b).mp h).2).2) fun root hroot a ha b hab => ?_
    have hdoneA := hmem hroot ha
    exact (hedge a b).mpr ⟨hdoneA, isParent_readGraph.mpr ⟨hsound a hdoneA, hab⟩⟩
  exact ⟨fun root hroot node hnode => hsound node (hmem hroot ((hreach root hroot node).mpr hnode)), hacyclic⟩

/-- The check of the artifacts of a snapshot ends and accepts exactly when all that the snapshot reaches is sound and
on no cycle. -/
theorem validateSnapshotArtifacts_spec (services : ArtifactServices Columns Payload E) (digest : String → String)
    (store : ArtifactStore Columns) {batchSize : Nat} (hsize : 0 < batchSize) (artifactIds : List (String × String))
    (snapshotId : String) :
    validateSnapshotArtifacts services digest store batchSize artifactIds v2SchemaVersion snapshotId ≠
      .error .unfinished ∧
    (validateSnapshotArtifacts services digest store batchSize artifactIds v2SchemaVersion snapshotId = .ok () ↔
      ArtifactClosure services digest store (artifactIds.map Prod.snd)) := by
  have hlegacy : (v2SchemaVersion == v1SchemaVersion) = false := by decide
  rw [validateSnapshotArtifacts, hlegacy]
  generalize artifactIds.map Prod.snd = roots
  dsimp only
  obtain ⟨hok, hstop⟩ := closeFrontier_spec hsize (fun batch node hnode =>
    (readArtifact_batch false batch node hnode).trans (readArtifact_batch false [node] node List.mem_cons_self).symm)
    (confined_namedIds services digest store snapshotId roots)
  cases hclose : closeFrontier (readArtifact services digest store false snapshotId) batchSize
      ((namedIds store roots).length + 1) (.start roots) with
  | error stop =>
    -- an artifact that is reached and was not accepted
    obtain ⟨node, message, ⟨root, hroot, hreach⟩, hread, rfl⟩ := hstop stop hclose
    refine ⟨fun h => (by cases h), iff_of_false (fun h => by cases h) fun hclosure => ?_⟩
    have hstored := Relation.ReflTransGen.mono (fun a b h => (isParent_readGraph.mp h).2) _ _ hreach
    rcases readArtifact_cases services digest store snapshotId node with ⟨_, parents, _, hgood⟩ | ⟨hbad, _⟩
    · cases hread.symm.trans hgood
    · exact hbad (hclosure.sound root hroot node hstored)
  | ok c =>
    obtain ⟨done, hdone, hreadable, hparents⟩ := hok c hclose
    obtain ⟨hsound, hacyclic⟩ := recorded_above hdone hreadable hparents
    obtain ⟨hfinished, hsearch⟩ := validateClosures_iff
      (fun artifactId => "snapshot " ++ snapshotId ++ " artifact parent cycle includes " ++ artifactId) roots
      (c.parents.map Prod.fst) fun node parents h => mem_of_parentsOf h
    rw [List.length_map] at hfinished hsearch
    dsimp only [bind, Except.bind]
    cases hresult : roots.foldlM (validateClosure
        (fun artifactId => "snapshot " ++ snapshotId ++ " artifact parent cycle includes " ++ artifactId)
        (parentsOf c.parents) (c.parents.length + 1)) ⟨[], []⟩ with
    | ok marks =>
      exact ⟨fun h => (by cases h), iff_of_true rfl ⟨hsound, hacyclic.mp (hsearch.mp ⟨marks, hresult⟩)⟩⟩
    | error stop =>
      refine ⟨fun h => ?_, iff_of_false (fun h => by cases h) fun hclosure => ?_⟩
      · cases h
        exact hfinished hresult
      · obtain ⟨marks, hmarks⟩ := hsearch.mpr (hacyclic.mpr hclosure.acyclic)
        cases hresult.symm.trans hmarks

/-- On every store the check ends, and its verdict is that of the graph of the store, whichever the batches. -/
theorem snapshot_artifacts_exact (services : ArtifactServices Columns Payload E) (digest : String → String)
    (store : ArtifactStore Columns) (artifactIds : List (String × String)) (snapshotId : String) (batchSize : Nat)
    (hsize : 0 < batchSize) :
    validateSnapshotArtifacts services digest store batchSize artifactIds v2SchemaVersion snapshotId ≠
      .error .unfinished ∧
    (validateSnapshotArtifacts services digest store batchSize artifactIds v2SchemaVersion snapshotId = .ok () ↔
      ArtifactClosure services digest store (artifactIds.map Prod.snd)) ∧
    ∀ otherSize, 0 < otherSize →
      (validateSnapshotArtifacts services digest store otherSize artifactIds v2SchemaVersion snapshotId = .ok () ↔
        validateSnapshotArtifacts services digest store batchSize artifactIds v2SchemaVersion snapshotId = .ok ()) := by
  obtain ⟨hfinished, hverdict⟩ := validateSnapshotArtifacts_spec services digest store hsize artifactIds snapshotId
  refine ⟨hfinished, hverdict, fun otherSize hother => ?_⟩
  rw [(validateSnapshotArtifacts_spec services digest store hother artifactIds snapshotId).2, hverdict]

/-- Two artifacts with one parent, which is checked once. -/
theorem shared_parent_is_closed :
    ArtifactClosure (⟨fun _ => .ok ⟨"", [], ()⟩, fun _ _ => .ok ()⟩ : ArtifactServices Unit Unit Unit) (fun s => s)
      { artifacts := ⟨[⟨"source", [], ()⟩, ⟨"text", ["source"], ()⟩, ⟨"frames", ["source"], ()⟩], by decide⟩
        edges := ⟨[⟨"text:source", "text", "source", "PARENT"⟩, ⟨"frames:source", "frames", "source", "PARENT"⟩],
          by decide⟩ } ["text", "frames"] :=
  (snapshot_artifacts_exact _ _ _ [("transcript", "text"), ("visual", "frames")] "snapshot" validationBatchSize
    (by decide)).2.1.mp (by decide)

end Check
end StockContent.Lineage
