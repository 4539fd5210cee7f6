import Mathlib.Data.List.Nodup
import Mathlib.Data.List.Perm.Subperm
import Mathlib.Logic.Relation
import StockContent.Storage.Machine

/-! Graphs that are read one node at a time, each with its list of parents or missing. -/
namespace StockContent.Lineage

section Graph
variable {Node : Type} (g : Node → Option (List Node))

def IsParent (node parent : Node) : Prop := ∃ parents ∈ g node, parent ∈ parents

abbrev Reaches : Node → Node → Prop := Relation.ReflTransGen (IsParent g)

abbrev OnCycle (node : Node) : Prop := Relation.TransGen (IsParent g) node node

/-- Nothing that the roots reach is missing. -/
def Closed (roots : List Node) : Prop := ∀ root ∈ roots, ∀ node, Reaches g root node → g node ≠ none

def Acyclic (roots : List Node) : Prop := ∀ root ∈ roots, ∀ node, Reaches g root node → ¬ OnCycle g node

/-- Two readings of a graph with the same nodes and the same parents. -/
structure SameGraph (g h : Node → Option (List Node)) : Prop where
  missing : ∀ node, g node = none ↔ h node = none
  isParent : ∀ node parent, IsParent g node parent ↔ IsParent h node parent

variable {g} {h : Node → Option (List Node)}

theorem SameGraph.isParent_eq (hgh : SameGraph g h) : IsParent g = IsParent h := by
  funext node parent
  exact propext (hgh.isParent node parent)

theorem SameGraph.closed (hgh : SameGraph g h) (roots : List Node) : Closed g roots ↔ Closed h roots := by
  unfold Closed Reaches
  simp only [hgh.isParent_eq, hgh.missing, ne_eq]

theorem SameGraph.acyclic (hgh : SameGraph g h) (roots : List Node) : Acyclic g roots ↔ Acyclic h roots := by
  unfold Acyclic Reaches OnCycle
  simp only [hgh.isParent_eq]

/-- A graph whose edges are some of another's, and all of those above the roots, has the same nodes and cycles there. -/
theorem above_iff {roots : List Node} (hgh : ∀ a b, IsParent g a b → IsParent h a b)
    (hhg : ∀ root ∈ roots, ∀ a, Reaches g root a → ∀ b, IsParent h a b → IsParent g a b) :
    (∀ root ∈ roots, ∀ a, Reaches g root a ↔ Reaches h root a) ∧ (Acyclic g roots ↔ Acyclic h roots) := by
  have hreach : ∀ root ∈ roots, ∀ a, Reaches g root a ↔ Reaches h root a := by
    intro root hroot a
    refine ⟨fun ha => Relation.ReflTransGen.mono hgh _ _ ha, fun ha => ?_⟩
    induction ha with
    | refl => exact .refl
    | tail _ hstep ih => exact ih.tail (hhg root hroot _ ih _ hstep)
  have hcycle {root a b : Node} (hroot : root ∈ roots) (ha : Reaches g root a)
      (hab : Relation.TransGen (IsParent h) a b) : Relation.TransGen (IsParent g) a b := by
    induction hab with
    | single hstep => exact .single (hhg root hroot _ ha _ hstep)
    | tail _ hstep ih => exact ih.tail (hhg root hroot _ (ha.trans ih.to_reflTransGen) _ hstep)
  refine ⟨hreach, ⟨fun hacyclic root hroot a ha hcyc => ?_, fun hacyclic root hroot a ha hcyc => ?_⟩⟩
  · have hg := (hreach root hroot a).mpr ha
    exact hacyclic root hroot a hg (hcycle hroot hg hcyc)
  · exact hacyclic root hroot a ((hreach root hroot a).mp ha) (Relation.TransGen.mono hgh _ _ hcyc)

theorem closed_iff {roots : List Node} : Closed g roots ↔ ∀ root ∈ roots, Closed g [root] := by
  simp [Closed]

theorem acyclic_iff {roots : List Node} : Acyclic g roots ↔ ∀ root ∈ roots, Acyclic g [root] := by
  simp [Acyclic]

variable (g)

/-- A node from which every way through parents ends. -/
def Founded : Node → Prop := Acc fun parent node => IsParent g node parent

variable {g} {a b : Node}

theorem Founded.reaches (h : Founded g a) (hab : Reaches g a b) : Founded g b := by
  induction hab with
  | refl => exact h
  | tail _ hstep ih => exact ih.inv hstep

theorem Founded.not_onCycle (h : Founded g a) : ¬ OnCycle g a := by
  induction h with
  | intro a _ ih =>
    intro hcycle
    obtain ⟨b, hab, hba⟩ := Relation.TransGen.head'_iff.mp hcycle
    exact ih b hab (Relation.TransGen.tail' hba hab)

theorem Founded.acyclic {roots : List Node} (h : ∀ root ∈ roots, Founded g root) : Acyclic g roots :=
  fun root hroot _ hreach => ((h root hroot).reaches hreach).not_onCycle

/-- Nodes in a row, each a parent of the one before, from a root to a node. -/
inductive Trail (g : Node → Option (List Node)) (root : Node) : List Node → Node → Prop
  | root : Trail g root [] root
  | step {path : List Node} {a b : Node} : Trail g root path a → IsParent g a b → Trail g root (path ++ [a]) b

theorem Trail.reaches {root : Node} {path : List Node} (h : Trail g root path a) : Reaches g root a := by
  induction h with
  | root => exact .refl
  | step _ hstep ih => exact ih.tail hstep

/-- A trail that comes back to a node on it has gone round a cycle. -/
theorem Trail.transGen {root : Node} {path : List Node} (h : Trail g root path a) (hb : b ∈ path) :
    Relation.TransGen (IsParent g) b a := by
  induction h with
  | root => cases hb
  | step htrail hstep ih =>
    rcases List.mem_append.mp hb with hb | hb
    · exact (ih hb).tail hstep
    · cases List.mem_singleton.mp hb
      exact .single hstep

/-- Distinct nodes of a finite store are no more than it holds. -/
theorem length_le_of_nodup {path stored : List Node} (hn : path.Nodup) (hpath : ∀ node ∈ path, node ∈ stored) :
    path.length ≤ stored.length := (hn.subperm hpath).length_le

end Graph
end StockContent.Lineage

/-! Walks of a store along parents that know the nodes on the way to where they are, and nothing else.
A walk records what it meets that is missing or already on its way, and goes on. -/
namespace StockContent.Lineage
open Storage

/-- A node with the trees of its parents. -/
inductive Tree (Item : Type) where
  | node (item : Item) (parents : List (Tree Item))

/-- Why a walk did not end with a result. -/
inductive Stop (E : Type) where
  | raised (error : E)
  | unfinished
  deriving DecidableEq

/-- A store with what a walk of it does at a node. -/
structure PathWalk (Node E Item Message : Type) where
  read : Node → Except E (Option Item)
  parents : Item → List Node
  assemble : Item → List (Option (Tree Item)) → Option (Tree Item)
  cycle : List Node → Node → Message
  missing : List Node → Node → Message
  assemble_some : ∀ item trees, assemble item (trees.map some) = some (.node item trees)

/-- A pass that raises raises in one of its calls. -/
theorem mapM_eq_error {F A B : Type} {f : A → Except F B} {xs : List A} {error : F} (h : xs.mapM f = .error error) :
    ∃ x ∈ xs, f x = .error error := by
  induction xs with
  | nil => cases h
  | cons x xs ih =>
    rw [List.mapM_cons] at h
    cases hx : f x with
    | error other =>
      rw [hx] at h
      cases h
      exact ⟨x, List.mem_cons_self, hx⟩
    | ok y =>
      rw [hx] at h
      cases hxs : xs.mapM f with
      | error other =>
        rw [hxs] at h
        cases h
        obtain ⟨z, hz, hfz⟩ := ih hxs
        exact ⟨z, List.mem_cons_of_mem x hz, hfz⟩
      | ok ys =>
        rw [hxs] at h
        cases h

theorem reduceOption_map_some {A : Type} (xs : List A) : (xs.map some).reduceOption = xs := by
  change (xs.map some).filterMap id = xs
  rw [List.filterMap_map]
  exact List.filterMap_some

namespace PathWalk

section Above
variable {Node E Item Message : Type} (w : PathWalk Node E Item Message)

def graph (node : Node) : Option (List Node) :=
  match w.read node with
  | .ok (some item) => some (w.parents item)
  | _ => none

/-- A tree with everything that is above a node. -/
inductive Whole : Node → Tree Item → Prop
  | node {node : Node} {item : Item} {trees : List (Tree Item)} (hread : w.read node = .ok (some item))
      (hparents : List.Forall₂ Whole (w.parents item) trees) : Whole node (.node item trees)

/-- What is wrong with a graph above a root. -/
def Broken (root : Node) : Prop :=
  ∃ node, Reaches w.graph root node ∧ (w.read node = .ok none ∨ OnCycle w.graph node)

variable {w} {node : Node}

theorem graph_eq_some {parents : List Node} :
    w.graph node = some parents ↔ ∃ item, w.read node = .ok (some item) ∧ w.parents item = parents := by
  rw [graph]
  split <;> simp_all

theorem isParent_iff {parent : Node} :
    IsParent w.graph node parent ↔ ∃ item, w.read node = .ok (some item) ∧ parent ∈ w.parents item := by
  constructor
  · rintro ⟨parents, hgraph, hmem⟩
    obtain ⟨item, hread, rfl⟩ := graph_eq_some.mp hgraph
    exact ⟨item, hread, hmem⟩
  · rintro ⟨item, hread, hmem⟩
    exact ⟨w.parents item, graph_eq_some.mpr ⟨item, hread, rfl⟩, hmem⟩

theorem graph_eq_none {found : Option Item} (hread : w.read node = .ok found) :
    w.graph node = none ↔ found = none := by
  rw [graph, hread]
  cases found <;> simp

theorem Whole.read {whole : Tree Item} (h : Whole w node whole) : ∃ item, w.read node = .ok (some item) := by
  cases h with
  | node hread _ => exact ⟨_, hread⟩

theorem Whole.reaches {whole : Tree Item} {other : Node} (h : Whole w node whole)
    (hreach : Reaches w.graph node other) : ∃ whole, Whole w other whole := by
  induction hreach with
  | refl => exact ⟨whole, h⟩
  | tail _ hstep ih =>
    obtain ⟨whole, hwhole⟩ := ih
    cases hwhole with
    | node hread hparents =>
      obtain ⟨item, hitem, hmem⟩ := isParent_iff.mp hstep
      cases hread.symm.trans hitem
      obtain ⟨i, hi, rfl⟩ := List.getElem_of_mem hmem
      exact ⟨_, hparents.get hi (hparents.length_eq ▸ hi)⟩

/-- Parents whose walks are all without errors have whole trees. -/
theorem forall₂_whole {f : Node → Except (Stop E) (Option (Tree Item) × List Message)} {parents : List Node}
    {walked : List (Option (Tree Item) × List Message)}
    (hwalked : List.Forall₂ (fun x y => f x = .ok y) parents walked)
    (hclean : ∀ result ∈ walked, result.2 = [])
    (hf : ∀ parent tree, f parent = .ok (tree, []) →
      Founded w.graph parent ∧ ∃ whole, tree = some whole ∧ Whole w parent whole) :
    (∀ parent ∈ parents, Founded w.graph parent) ∧
    ∃ trees, walked.map Prod.fst = trees.map some ∧ List.Forall₂ (Whole w) parents trees := by
  induction hwalked with
  | nil => exact ⟨fun parent hmem => (by cases hmem), [], rfl, .nil⟩
  | @cons parent result parents walked hwalk _ ih =>
    obtain ⟨hresult, hclean⟩ := List.forall_mem_cons.mp hclean
    obtain ⟨hfounded, whole, htree, hwhole⟩ := hf parent result.1 (by rw [hwalk, ← hresult])
    obtain ⟨hrest, trees, htrees, hwholes⟩ := ih hclean
    refine ⟨List.forall_mem_cons.mpr ⟨hfounded, hrest⟩, whole :: trees, ?_, .cons hwhole hwholes⟩
    rw [List.map_cons, List.map_cons, htree, htrees]

end Above

section Walk
variable {Node E Item Message : Type} [DecidableEq Node] (w : PathWalk Node E Item Message)

/-- A walk from a node that was reached along a path. The fuel bounds how deep it goes. -/
def walk : Nat → List Node → Node → Except (Stop E) (Option (Tree Item) × List Message)
  | 0, _, _ => .error .unfinished
  | fuel + 1, path, node =>
    if node ∈ path then .ok (none, [w.cycle path node])
    else match w.read node with
      | .error error => .error (.raised error)
      | .ok none => .ok (none, [w.missing path node])
      | .ok (some item) => do
        let walked ← (w.parents item).mapM (walk fuel (path ++ [node]))
        .ok (w.assemble item (walked.map Prod.fst), walked.flatMap Prod.snd)

variable {w} {fuel : Nat} {path : List Node} {node root : Node}

/-- What a walk does at a node. -/
inductive Visit (w : PathWalk Node E Item Message) (fuel : Nat) (path : List Node) (node : Node) :
    Except (Stop E) (Option (Tree Item) × List Message) → Prop
  | onPath (hpath : node ∈ path) : Visit w fuel path node (.ok (none, [w.cycle path node]))
  | unreadable {error : E} (hread : w.read node = .error error) : Visit w fuel path node (.error (.raised error))
  | missing (hread : w.read node = .ok none) : Visit w fuel path node (.ok (none, [w.missing path node]))
  | walked {item : Item} {walked : List (Option (Tree Item) × List Message)} (hpath : node ∉ path)
      (hread : w.read node = .ok (some item))
      (hwalked : (w.parents item).mapM (w.walk fuel (path ++ [node])) = .ok walked) :
      Visit w fuel path node (.ok (w.assemble item (walked.map Prod.fst), walked.flatMap Prod.snd))
  | stopped {item : Item} {stop : Stop E} (hpath : node ∉ path) (hread : w.read node = .ok (some item))
      (hwalked : (w.parents item).mapM (w.walk fuel (path ++ [node])) = .error stop) :
      Visit w fuel path node (.error stop)

theorem walk_visit (w : PathWalk Node E Item Message) (fuel : Nat) (path : List Node) (node : Node) :
    Visit w fuel path node (w.walk (fuel + 1) path node) := by
  rw [walk]
  by_cases hpath : node ∈ path
  · rw [if_pos hpath]
    exact .onPath hpath
  rw [if_neg hpath]
  cases hread : w.read node with
  | error error => exact .unreadable hread
  | ok found =>
    cases found with
    | none => exact .missing hread
    | some item =>
      dsimp only
      cases hwalked : (w.parents item).mapM (w.walk fuel (path ++ [node])) with
      | error stop => exact .stopped hpath hread hwalked
      | ok walked => exact .walked hpath hread hwalked

/-- A walk without errors has seen all there is above its node, and every way up ends. -/
theorem walk_complete {tree : Option (Tree Item)} (h : w.walk fuel path node = .ok (tree, [])) :
    Founded w.graph node ∧ ∃ whole, tree = some whole ∧ Whole w node whole := by
  induction fuel generalizing path node tree with
  | zero => cases h
  | succ fuel ih =>
    have hvisit := walk_visit w fuel path node
    generalize w.walk (fuel + 1) path node = result at h hvisit
    cases hvisit with
    | onPath => cases h
    | unreadable => cases h
    | missing => cases h
    | stopped => cases h
    | walked _ hread hwalked =>
      obtain ⟨htree, herrors⟩ := Prod.mk.inj (Except.ok.inj h)
      obtain ⟨hfounded, trees, hfst, hwhole⟩ := forall₂_whole (mapM_eq_ok_iff.mp hwalked)
        (List.flatMap_eq_nil_iff.mp herrors) fun parent tree hwalk => ih hwalk
      refine ⟨Acc.intro node fun parent hparent => ?_, ?_⟩
      · obtain ⟨other, hother, hmem⟩ := isParent_iff.mp hparent
        cases hread.symm.trans hother
        exact hfounded parent hmem
      · rw [hfst, w.assemble_some] at htree
        exact ⟨_, htree.symm, .node hread hwhole⟩

/-- An error that a walk records is a node above the root that is missing or on a cycle. -/
theorem walk_errors {tree : Option (Tree Item)} {errors : List Message} (htrail : Trail w.graph root path node)
    (h : w.walk fuel path node = .ok (tree, errors)) (herrors : errors ≠ []) : Broken w root := by
  induction fuel generalizing path node tree errors with
  | zero => cases h
  | succ fuel ih =>
    have hvisit := walk_visit w fuel path node
    generalize w.walk (fuel + 1) path node = result at h hvisit
    cases hvisit with
    | onPath hpath => exact ⟨node, htrail.reaches, .inr (htrail.transGen hpath)⟩
    | unreadable => cases h
    | missing hread => exact ⟨node, htrail.reaches, .inl hread⟩
    | stopped => cases h
    | walked _ hread hwalked =>
      obtain ⟨rfl, rfl⟩ := Prod.mk.inj (Except.ok.inj h)
      obtain ⟨message, hmessage⟩ := List.exists_mem_of_ne_nil _ herrors
      obtain ⟨result, hresult, hmem⟩ := List.mem_flatMap.mp hmessage
      obtain ⟨parent, hparent, hwalk⟩ := mem_of_mapM hwalked hresult
      exact ih (htrail.step (isParent_iff.mpr ⟨_, hread, hparent⟩)) hwalk (List.ne_nil_of_mem hmem)

/-- A walk raises only what a node above the root raises when it is read. -/
theorem walk_raised {error : E} (htrail : Trail w.graph root path node)
    (h : w.walk fuel path node = .error (.raised error)) :
    ∃ node, Reaches w.graph root node ∧ w.read node = .error error := by
  induction fuel generalizing path node with
  | zero => cases h
  | succ fuel ih =>
    have hvisit := walk_visit w fuel path node
    generalize w.walk (fuel + 1) path node = result at h hvisit
    cases hvisit with
    | onPath => cases h
    | missing => cases h
    | walked => cases h
    | unreadable hread =>
      cases h
      exact ⟨node, htrail.reaches, hread⟩
    | stopped _ hread hwalked =>
      cases h
      obtain ⟨parent, hparent, hwalk⟩ := mapM_eq_error hwalked
      exact ih (htrail.step (isParent_iff.mpr ⟨_, hread, hparent⟩)) hwalk

/-- The nodes on the way to a node are stored and differ, so a walk ends once its fuel is that of the store. -/
theorem walk_finished {stored : List Node} (hstored : ∀ node item, w.read node = .ok (some item) → node ∈ stored)
    (hn : path.Nodup) (hpath : ∀ node ∈ path, node ∈ stored) (hfuel : stored.length < fuel + path.length) :
    w.walk fuel path node ≠ .error .unfinished := by
  induction fuel generalizing path node with
  | zero =>
    have hle := length_le_of_nodup hn hpath
    omega
  | succ fuel ih =>
    intro h
    have hvisit := walk_visit w fuel path node
    generalize w.walk (fuel + 1) path node = result at h hvisit
    cases hvisit with
    | onPath => cases h
    | missing => cases h
    | walked => cases h
    | unreadable => cases h
    | stopped hmem hread hwalked =>
      cases h
      obtain ⟨parent, _, hwalk⟩ := mapM_eq_error hwalked
      refine ih ?_ ?_ ?_ hwalk
      · exact List.nodup_append.mpr ⟨hn, List.nodup_singleton node, by grind⟩
      · intro other hother
        rcases List.mem_append.mp hother with hother | hother
        · exact hpath other hother
        · cases List.mem_singleton.mp hother
          exact hstored node _ hread
      · rw [List.length_append, List.length_singleton]
        omega

/-- From its root, a walk over a finite store ends. It records no error exactly when what the root reaches is all
there and without cycles, and then it has the whole tree; it raises only what a node above the root raises. -/
theorem walk_root (w : PathWalk Node E Item Message) (stored : List Node)
    (hstored : ∀ node item, w.read node = .ok (some item) → node ∈ stored) (root : Node) :
    (∀ error, w.walk (stored.length + 1) [] root = .error error →
      ∃ node raised, Reaches w.graph root node ∧ w.read node = .error raised ∧ error = .raised raised) ∧
    ∀ tree errors, w.walk (stored.length + 1) [] root = .ok (tree, errors) →
      (errors = [] ↔ Closed w.graph [root] ∧ Acyclic w.graph [root]) ∧
      (errors = [] → ∃ whole, tree = some whole ∧ Whole w root whole) := by
  constructor
  · intro error h
    cases error with
    | raised error =>
      obtain ⟨node, hreach, hread⟩ := walk_raised .root h
      exact ⟨node, error, hreach, hread, rfl⟩
    | unfinished =>
      exact absurd h (walk_finished hstored List.nodup_nil (fun node hnode => by cases hnode)
        (Nat.lt_succ_self stored.length))
  · intro tree errors h
    refine ⟨⟨?_, ?_⟩, ?_⟩
    · rintro rfl
      obtain ⟨hfounded, whole, _, hwhole⟩ := walk_complete h
      refine ⟨?_, Founded.acyclic ?_⟩
      · intro other hother node hreach hnone
        cases List.mem_singleton.mp hother
        obtain ⟨above, habove⟩ := hwhole.reaches hreach
        obtain ⟨item, hitem⟩ := habove.read
        cases (graph_eq_none hitem).mp hnone
      · intro other hother
        cases List.mem_singleton.mp hother
        exact hfounded
    · rintro ⟨hclosed, hacyclic⟩
      by_contra herrors
      obtain ⟨node, hreach, hmissing | hcycle⟩ := walk_errors .root h herrors
      · exact absurd ((graph_eq_none hmissing).mpr rfl) (hclosed root List.mem_cons_self node hreach)
      · exact absurd hcycle (hacyclic root List.mem_cons_self node hreach)
    · rintro rfl
      exact (walk_complete h).2

end Walk
end PathWalk
end StockContent.Lineage
