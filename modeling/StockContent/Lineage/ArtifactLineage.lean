import StockContent.Lineage.PathWalk
import StockContent.Storage.StableMembership
import StockContent.Storage.Table

/-! Stored artifacts and the lineage that their repository reports. -/
namespace StockContent.Lineage
open Storage

/-- A row of the artifact table. What its columns hold besides is judged as a whole when it is read. -/
structure ContentArtifactRow (Columns : Type) where
  artifactId : String
  parentArtifactIds : List String
  columns : Columns
  deriving DecidableEq

abbrev ArtifactTable (Columns : Type) := Table (@ContentArtifactRow.artifactId Columns)

/-- An artifact, with what its serialization says besides its parents. -/
structure Artifact (Payload : Type) where
  artifactId : String
  parentArtifactIds : List String
  payload : Payload
  deriving DecidableEq

/-- How a row becomes an artifact: its payload is read, and must agree with the row. -/
structure ArtifactServices (Columns Payload E : Type) where
  deserializeArtifact : Columns → Except E (Artifact Payload)
  validateRowPayload : ContentArtifactRow Columns → Artifact Payload → Except E Unit

section Repository
variable {Columns Payload E : Type} (services : ArtifactServices Columns Payload E) (rows : ArtifactTable Columns)

def openRow (row : ContentArtifactRow Columns) : Except E (Artifact Payload) := do
  let artifact ← services.deserializeArtifact row.columns
  services.validateRowPayload row artifact
  pure artifact

def getArtifact (artifactId : String) : Except E (Option (Artifact Payload)) :=
  match rows.get artifactId with
  | none => .ok none
  | some row => (openRow services row).map some

/-- The parents of an artifact that is stored and can be read. -/
def artifactParents (artifactId : String) : Option (List String) :=
  match getArtifact services rows artifactId with
  | .ok (some artifact) => some artifact.parentArtifactIds
  | _ => none

def arrow (path : List String) : String := String.intercalate " -> " path

/-- The walk of `lineage`: trees of the parents that are there, in the order of their ids. -/
def lineageWalk (root : String) : PathWalk String E (Artifact Payload) String where
  read := getArtifact services rows
  parents artifact := artifact.parentArtifactIds.insertionSort (· ≤ ·)
  assemble artifact trees := some (.node artifact trees.reduceOption)
  cycle path current := "artifact lineage cycle detected: " ++ arrow (path ++ [current])
  missing path current := "artifact lineage parent missing: " ++ path.getLast?.getD root ++ " -> " ++ current
  assemble_some artifact trees := by rw [reduceOption_map_some]

structure ArtifactLineage (Payload : Type) where
  artifact : Artifact Payload
  parents : List (Tree (Artifact Payload))
  lineage : Option (Tree (Artifact Payload))
  lineageComplete : Bool
  lineageErrors : List String

def Tree.parents {Item : Type} : Tree Item → List (Tree Item)
  | .node _ parents => parents

/-- What `lineage` returns for a root that is there. -/
def lineageOf (root : Artifact Payload) (tree : Option (Tree (Artifact Payload))) (errors : List String) :
    ArtifactLineage Payload :=
  if errors ≠ [] then
    { artifact := root, parents := [], lineage := none, lineageComplete := false, lineageErrors := sortedSet errors }
  else
    { artifact := root, parents := tree.elim [] Tree.parents, lineage := tree, lineageComplete := true
      lineageErrors := [] }

/-- Nothing is returned for a root that is not stored. -/
def lineage (artifactId : String) : Except (Stop E) (Option (ArtifactLineage Payload)) :=
  match getArtifact services rows artifactId with
  | .error error => .error (.raised error)
  | .ok none => .ok none
  | .ok (some root) => do
    let (tree, errors) ← (lineageWalk services rows artifactId).walk (rows.rows.length + 1) [] artifactId
    .ok (some (lineageOf root tree errors))

variable {services rows}

theorem stored_of_getArtifact {artifactId : String} {artifact : Artifact Payload}
    (h : getArtifact services rows artifactId = .ok (some artifact)) : artifactId ∈ rows.rows.map (·.artifactId) := by
  rw [getArtifact] at h
  split at h
  · cases h
  · rename_i row hrow
    rw [← Table.get_key hrow]
    exact List.mem_map_of_mem (Table.mem_of_get hrow)

/-- A walk that visits the stored parents, in whichever order, sees the graph of the artifacts. -/
theorem sameGraph_artifactParents (w : PathWalk String E (Artifact Payload) String)
    (hread : w.read = getArtifact services rows)
    (hparents : ∀ artifact parent, parent ∈ w.parents artifact ↔ parent ∈ artifact.parentArtifactIds) :
    SameGraph w.graph (artifactParents services rows) := by
  constructor
  · intro node
    rw [PathWalk.graph, artifactParents, hread]
    split <;> simp_all
  · intro node parent
    rw [PathWalk.isParent_iff, hread]
    constructor
    · rintro ⟨artifact, hget, hmem⟩
      refine ⟨artifact.parentArtifactIds, ?_, (hparents artifact parent).mp hmem⟩
      rw [artifactParents, hget]
      rfl
    · rintro ⟨parents, hsome, hmem⟩
      rw [artifactParents] at hsome
      split at hsome
      · rename_i artifact hget
        cases hsome
        exact ⟨artifact, hget, (hparents artifact parent).mpr hmem⟩
      · cases hsome

/-- What a lineage report says of the graph above its root. -/
structure LineageExact (services : ArtifactServices Columns Payload E) (rows : ArtifactTable Columns)
    (artifactId : String) : Prop where
  finishes : lineage services rows artifactId ≠ .error .unfinished
  returns : (∀ row ∈ rows.rows, ∃ artifact, openRow services row = .ok artifact) →
    ∃ report, lineage services rows artifactId = .ok report
  absent : lineage services rows artifactId = .ok none ↔ getArtifact services rows artifactId = .ok none
  complete : ∀ report, lineage services rows artifactId = .ok (some report) →
    (report.lineageComplete = true ↔
      Closed (artifactParents services rows) [artifactId] ∧ Acyclic (artifactParents services rows) [artifactId])
  whole : ∀ report, lineage services rows artifactId = .ok (some report) → report.lineageComplete = true →
    ∃ tree, report.lineage = some tree ∧ report.parents = tree.parents ∧
      PathWalk.Whole (lineageWalk services rows artifactId) artifactId tree
  incomplete : ∀ report, lineage services rows artifactId = .ok (some report) → report.lineageComplete = false →
    report.lineage = none ∧ report.parents = []

theorem getArtifact_ok (rows : ArtifactTable Columns)
    (h : ∀ row ∈ rows.rows, ∃ artifact, openRow services row = .ok artifact) (node : String) :
    ∃ found, getArtifact services rows node = .ok found := by
  rw [getArtifact]
  cases hrow : rows.get node with
  | none => exact ⟨none, rfl⟩
  | some row =>
    obtain ⟨artifact, hartifact⟩ := h row (Table.mem_of_get hrow)
    exact ⟨some artifact, congrArg (Except.map some) hartifact⟩

/-- A lineage is what was walked, or raises what reading an artifact raises. -/
theorem lineage_cases (services : ArtifactServices Columns Payload E) (rows : ArtifactTable Columns)
    (artifactId : String) :
    (∃ node raised, getArtifact services rows node = .error raised ∧
      lineage services rows artifactId = .error (.raised raised)) ∨
    (getArtifact services rows artifactId = .ok none ∧ lineage services rows artifactId = .ok none) ∨
    ∃ root tree errors, getArtifact services rows artifactId = .ok (some root) ∧
      lineage services rows artifactId = .ok (some (lineageOf root tree errors)) ∧
      (errors = [] ↔
        Closed (artifactParents services rows) [artifactId] ∧ Acyclic (artifactParents services rows) [artifactId]) ∧
      (errors = [] → ∃ whole, tree = some whole ∧
        PathWalk.Whole (lineageWalk services rows artifactId) artifactId whole) := by
  have hsame := sameGraph_artifactParents (lineageWalk services rows artifactId) rfl
    fun artifact parent => List.mem_insertionSort _
  obtain ⟨hraised, hwalk⟩ := PathWalk.walk_root (lineageWalk services rows artifactId)
    (rows.rows.map (·.artifactId)) (fun node artifact h => stored_of_getArtifact h) artifactId
  rw [List.length_map] at hraised hwalk
  rw [lineage]
  cases hroot : getArtifact services rows artifactId with
  | error error => exact .inl ⟨artifactId, error, hroot, rfl⟩
  | ok found =>
    cases found with
    | none => exact .inr (.inl ⟨rfl, rfl⟩)
    | some root =>
      dsimp only
      cases hresult : (lineageWalk services rows artifactId).walk (rows.rows.length + 1) [] artifactId with
      | error error =>
        obtain ⟨node, raised, _, hread, rfl⟩ := hraised error hresult
        exact .inl ⟨node, raised, hread, rfl⟩
      | ok result =>
        obtain ⟨tree, errors⟩ := result
        obtain ⟨hclean, hwhole⟩ := hwalk tree errors hresult
        rw [hsame.closed, hsame.acyclic] at hclean
        exact .inr (.inr ⟨root, tree, errors, rfl, rfl, hclean, hwhole⟩)

theorem lineageOf_complete {root : Artifact Payload} {tree : Option (Tree (Artifact Payload))}
    {errors : List String} : (lineageOf root tree errors).lineageComplete = true ↔ errors = [] := by
  rw [lineageOf]
  by_cases h : errors = []
  · rw [if_neg (not_not.mpr h)]
    exact iff_of_true rfl h
  · rw [if_pos h]
    exact iff_of_false Bool.false_ne_true h

/-- The lineage of an artifact is exact on every store. -/
theorem lineage_exact (services : ArtifactServices Columns Payload E) (rows : ArtifactTable Columns)
    (artifactId : String) : LineageExact services rows artifactId := by
  rcases lineage_cases services rows artifactId with ⟨node, raised, hread, hlineage⟩ | ⟨hroot, hlineage⟩ |
    ⟨root, tree, errors, hroot, hlineage, hclean, hwhole⟩
  · constructor <;> rw [hlineage]
    · exact fun h => by cases h
    · intro hrows
      obtain ⟨found, hfound⟩ := getArtifact_ok rows hrows node
      cases hread.symm.trans hfound
    · refine iff_of_false (fun h => by cases h) fun hroot => ?_
      rw [lineage, hroot] at hlineage
      cases hlineage
    all_goals exact fun report h => by cases h
  · constructor <;> rw [hlineage]
    · exact fun h => by cases h
    · exact fun _ => ⟨none, rfl⟩
    · exact iff_of_true rfl hroot
    all_goals exact fun report h => by cases h
  · constructor <;> rw [hlineage]
    · exact fun h => by cases h
    · exact fun _ => ⟨_, rfl⟩
    · exact iff_of_false (fun h => by cases h) fun h => by cases hroot.symm.trans h
    · rintro _ ⟨⟩
      rw [lineageOf_complete, hclean]
    · rintro _ ⟨⟩ hcomplete
      have herrors := lineageOf_complete.mp hcomplete
      obtain ⟨above, rfl, habove⟩ := hwhole herrors
      rw [lineageOf, if_neg (not_not.mpr herrors)]
      exact ⟨above, rfl, rfl, habove⟩
    · rintro _ ⟨⟩ hincomplete
      have herrors : errors ≠ [] := fun h => Bool.eq_false_iff.mp hincomplete (lineageOf_complete.mpr h)
      rw [lineageOf, if_pos herrors]
      exact ⟨rfl, rfl⟩

end Repository
end StockContent.Lineage
