import StockContent.Lineage.MarkedSearch

/-! A closure under parents by a worklist, which takes its nodes in batches and reads each one with its batch. -/
namespace StockContent.Lineage
open Storage

structure Worklist (Node : Type) where
  pending : List Node
  queued : List Node
  parents : List (Node × List Node)

theorem nodup_eraseDups {A : Type} [DecidableEq A] (xs : List A) : xs.eraseDups.Nodup := by
  induction hn : xs.length using Nat.strongRecOn generalizing xs with
  | ind n ih =>
    cases xs with
    | nil => exact List.nodup_nil
    | cons x xs =>
      rw [List.eraseDups_cons]
      refine List.nodup_cons.mpr ⟨by simp [List.mem_eraseDups], ih _ ?_ _ rfl⟩
      rw [← hn, List.length_cons]
      exact Nat.lt_succ_of_le (List.length_filter_le _ _)

section Worklist
variable {Node E : Type} [DecidableEq Node] (read : List Node → Node → Except E (Option (List Node)))

def enqueue (c : Worklist Node) (node : Node) : Worklist Node :=
  if node ∈ c.queued then c else { c with pending := c.pending ++ [node], queued := c.queued ++ [node] }

/-- A node of a batch: its parents are recorded and queued, or it is passed over. -/
def visit (batch : List Node) (c : Worklist Node) (node : Node) : Except (Stop E) (Worklist Node) :=
  match read batch node with
  | .error error => .error (.raised error)
  | .ok none => .ok c
  | .ok (some parents) => .ok (parents.foldl enqueue { c with parents := c.parents ++ [(node, parents)] })

def closeFrontier (batchSize : Nat) : Nat → Worklist Node → Except (Stop E) (Worklist Node)
  | 0, _ => .error .unfinished
  | fuel + 1, c =>
    if c.pending = [] then .ok c
    else do
      let batch := c.pending.take batchSize
      let c ← batch.foldlM (visit read batch) { c with pending := c.pending.drop batchSize }
      closeFrontier batchSize fuel c

def Worklist.start (roots : List Node) : Worklist Node where
  pending := roots.eraseDups
  queued := roots.eraseDups
  parents := []

/-- The parents of the nodes that are not passed over. -/
def readGraph (node : Node) : Option (List Node) :=
  match read [node] node with
  | .ok parents => parents
  | .error _ => none

/-- What has been done of a batch and of the whole. -/
structure Progress (roots done todo : List Node) (c : Worklist Node) : Prop where
  nodup : (done ++ (todo ++ c.pending)).Nodup
  queued : ∀ node, node ∈ c.queued ↔ node ∈ done ++ (todo ++ c.pending)
  rooted : ∀ root ∈ roots, root ∈ c.queued
  reached : ∀ node ∈ c.queued, ∃ root ∈ roots, Reaches (readGraph read) root node
  parents : c.parents = done.filterMap fun node => (readGraph read node).map fun parents => (node, parents)
  readable : ∀ node ∈ done, ∃ found, read [node] node = .ok found
  closed : ∀ node ∈ done, ∀ parent, IsParent (readGraph read) node parent → parent ∈ c.queued

variable {read} {roots done todo : List Node} {c c' : Worklist Node} {node : Node}

theorem progress_start (read : List Node → Node → Except E (Option (List Node))) (roots : List Node) :
    Progress read roots [] [] (.start roots) where
  nodup := nodup_eraseDups roots
  queued node := Iff.rfl
  rooted root hroot := List.mem_eraseDups.mpr hroot
  reached node hnode := ⟨node, List.mem_eraseDups.mp hnode, .refl⟩
  parents := rfl
  readable node hnode := by cases hnode
  closed node hnode := by cases hnode

/-- What enqueuing the parents of a node does: those that are new come at the end. -/
theorem foldl_enqueue (parents : List Node) (c : Worklist Node) :
    ∃ new, (parents.foldl enqueue c).pending = c.pending ++ new ∧ (parents.foldl enqueue c).queued = c.queued ++ new ∧
      (parents.foldl enqueue c).parents = c.parents ∧ new.Nodup ∧ (∀ node ∈ new, node ∈ parents ∧ node ∉ c.queued) ∧
      ∀ node ∈ parents, node ∈ c.queued ++ new := by
  induction parents generalizing c with
  | nil => exact ⟨[], by simp⟩
  | cons parent parents ih =>
    rw [List.foldl_cons, enqueue]
    by_cases hmem : parent ∈ c.queued
    · rw [if_pos hmem]
      obtain ⟨new, hpending, hqueued, hparents, hn, hnew, hall⟩ := ih c
      refine ⟨new, hpending, hqueued, hparents, hn, fun node hnode => ?_, ?_⟩
      · exact ⟨List.mem_cons_of_mem parent (hnew node hnode).1, (hnew node hnode).2⟩
      · exact List.forall_mem_cons.mpr ⟨List.mem_append_left new hmem, hall⟩
    · rw [if_neg hmem]
      obtain ⟨new, hpending, hqueued, hparents, hn, hnew, hall⟩ :=
        ih { c with pending := c.pending ++ [parent], queued := c.queued ++ [parent] }
      have hparent : parent ∉ new := fun h => (hnew parent h).2 (List.mem_append_right _ List.mem_cons_self)
      refine ⟨parent :: new, ?_, ?_, hparents, List.nodup_cons.mpr ⟨hparent, hn⟩, ?_, ?_⟩
      · rw [hpending, List.append_assoc]
        rfl
      · rw [hqueued, List.append_assoc]
        rfl
      · refine List.forall_mem_cons.mpr ⟨⟨List.mem_cons_self, hmem⟩, fun node hnode => ?_⟩
        obtain ⟨hnode, hnot⟩ := hnew node hnode
        exact ⟨List.mem_cons_of_mem parent hnode, fun h => hnot (List.mem_append_left _ h)⟩
      · refine List.forall_mem_cons.mpr ⟨List.mem_append_right _ List.mem_cons_self, fun node hnode => ?_⟩
        have hmem := hall node hnode
        rw [List.append_assoc] at hmem
        exact hmem

/-- One node more is done. -/
theorem Progress.visit (hc : Progress read roots done (node :: todo) c) {batch : List Node}
    (hbatch : read batch node = read [node] node) (h : visit read batch c node = .ok c') :
    Progress read roots (done ++ [node]) todo c' := by
  have hshift : done ++ (node :: todo ++ c.pending) = done ++ [node] ++ (todo ++ c.pending) := by
    rw [List.append_assoc]
    rfl
  have hnode : node ∈ c.queued := (hc.queued node).mpr (by simp)
  rw [Lineage.visit, hbatch] at h
  cases hread : read [node] node with
  | error error =>
    rw [hread] at h
    cases h
  | ok found =>
    have hgraph : readGraph read node = found := by rw [readGraph, hread]
    rw [hread] at h
    have hreadAll : ∀ other ∈ done ++ [node], ∃ found, read [other] other = .ok found := by
      intro other hother
      rcases List.mem_append.mp hother with hother | hother
      · exact hc.readable other hother
      · cases List.mem_singleton.mp hother
        exact ⟨found, hread⟩
    have hparents : (done ++ [node]).filterMap (fun node => (readGraph read node).map fun parents => (node, parents)) =
        c.parents ++ (found.map fun parents => (node, parents)).toList := by
      rw [List.filterMap_append, ← hc.parents, List.filterMap_cons, hgraph]
      cases found <;> rfl
    cases found with
    | none =>
      cases h
      refine ⟨hshift ▸ hc.nodup, hshift ▸ hc.queued, hc.rooted, hc.reached, ?_, hreadAll, ?_⟩
      · rw [hparents]
        exact (List.append_nil _).symm
      · intro other hother parent hedge
        rcases List.mem_append.mp hother with hother | hother
        · exact hc.closed other hother parent hedge
        · cases List.mem_singleton.mp hother
          obtain ⟨parents, hsome, _⟩ := hedge
          cases hgraph.symm.trans hsome
    | some parents =>
      obtain ⟨new, hpending, hqueued, hkept, hn, hnew, hall⟩ :=
        foldl_enqueue parents { c with parents := c.parents ++ [(node, parents)] }
      cases h
      have hmem : ∀ other, other ∈ c.queued ++ new ↔ other ∈ done ++ [node] ++ (todo ++ (c.pending ++ new)) := by
        intro other
        rw [List.mem_append, hc.queued, hshift]
        simp only [List.mem_append]
        tauto
      refine ⟨?_, ?_, ?_, ?_, ?_, hreadAll, ?_⟩
      · rw [hpending, ← List.append_assoc todo, ← List.append_assoc, ← hshift]
        refine List.nodup_append.mpr ⟨hc.nodup, hn, ?_⟩
        rintro other hother _ hfresh rfl
        exact (hnew other hfresh).2 ((hc.queued other).mpr hother)
      · intro other
        rw [hqueued, hpending]
        exact hmem other
      · intro root hroot
        rw [hqueued]
        exact List.mem_append_left new (hc.rooted root hroot)
      · intro other hother
        rw [hqueued] at hother
        rcases List.mem_append.mp hother with hother | hother
        · exact hc.reached other hother
        · obtain ⟨root, hroot, hreach⟩ := hc.reached node hnode
          exact ⟨root, hroot, hreach.tail ⟨parents, hgraph, (hnew other hother).1⟩⟩
      · rw [hkept, hparents]
        rfl
      · intro other hother parent hedge
        rw [hqueued]
        rcases List.mem_append.mp hother with hother | hother
        · exact List.mem_append_left new (hc.closed other hother parent hedge)
        · cases List.mem_singleton.mp hother
          obtain ⟨others, hsome, hparent⟩ := hedge
          cases hgraph.symm.trans hsome
          exact hall parent hparent

/-- A whole batch is done, or one of its nodes could not be read. -/
theorem Progress.batch {batch : List Node} {rest : List Node}
    (hread : ∀ node ∈ batch, read batch node = read [node] node) (hrest : ∀ node ∈ rest, node ∈ batch)
    (hc : Progress read roots done rest c) :
    (∀ c', rest.foldlM (Lineage.visit read batch) c = .ok c' → Progress read roots (done ++ rest) [] c') ∧
    ∀ stop, rest.foldlM (Lineage.visit read batch) c = .error stop →
      ∃ node error, (∃ root ∈ roots, Reaches (readGraph read) root node) ∧ read [node] node = .error error ∧
        stop = .raised error := by
  induction rest generalizing done c with
  | nil =>
    refine ⟨fun c' h => ?_, fun stop h => by cases h⟩
    cases h
    rwa [List.append_nil]
  | cons node rest ih =>
    obtain ⟨hnode, hrest⟩ := List.forall_mem_cons.mp hrest
    rw [List.foldlM_cons]
    cases hvisit : Lineage.visit read batch c node with
    | ok next =>
      have hnext := ih hrest (hc.visit (hread node hnode) hvisit)
      rw [List.append_assoc] at hnext
      exact hnext
    | error stop =>
      refine ⟨fun c' h => (by cases h), ?_⟩
      rintro _ ⟨⟩
      rw [Lineage.visit, hread node hnode] at hvisit
      split at hvisit
      · rename_i error herror
        cases hvisit
        exact ⟨node, error, hc.reached node ((hc.queued node).mpr (by simp)), herror, rfl⟩
      · cases hvisit
      · cases hvisit

/-- A store to which the closure of the roots is confined. -/
structure Confined (read : List Node → Node → Except E (Option (List Node))) (roots stored : List Node) : Prop where
  roots : ∀ root ∈ roots, root ∈ stored
  parents : ∀ node parent, IsParent (readGraph read) node parent → parent ∈ stored

omit [DecidableEq Node] in
theorem Confined.reaches {stored : List Node} (hstored : Confined read roots stored) {root : Node}
    (hroot : root ∈ roots) (h : Reaches (readGraph read) root node) : node ∈ stored := by
  induction h with
  | refl => exact hstored.roots root hroot
  | tail _ hstep _ => exact hstored.parents _ _ hstep

/-- The loop ends with everything done, or with a node that could not be read. It cannot go on for longer than there
are nodes, since each round takes one at least off the worklist and none comes back. -/
theorem Progress.closeFrontier {batchSize : Nat} (hsize : 0 < batchSize)
    (hread : ∀ batch, ∀ node ∈ batch, read batch node = read [node] node) {stored : List Node}
    (hstored : Confined read roots stored) {fuel : Nat} (hc : Progress read roots done [] c)
    (hfuel : stored.length < fuel + done.length) :
    (∀ c', closeFrontier read batchSize fuel c = .ok c' →
      ∃ done, Progress read roots done [] c' ∧ c'.pending = []) ∧
    ∀ stop, closeFrontier read batchSize fuel c = .error stop →
      ∃ node error, (∃ root ∈ roots, Reaches (readGraph read) root node) ∧ read [node] node = .error error ∧
        stop = .raised error := by
  induction fuel generalizing done c with
  | zero =>
    have hle : done.length ≤ stored.length := by
      refine length_le_of_nodup (List.nodup_append.mp hc.nodup).1 fun node hnode => ?_
      obtain ⟨root, hroot, hreach⟩ := hc.reached node ((hc.queued node).mpr (List.mem_append_left _ hnode))
      exact hstored.reaches hroot hreach
    omega
  | succ fuel ih =>
    rw [Lineage.closeFrontier]
    by_cases hempty : c.pending = []
    · rw [if_pos hempty]
      refine ⟨fun c' h => ?_, fun stop h => by cases h⟩
      cases h
      exact ⟨done, hc, hempty⟩
    · rw [if_neg hempty]
      have hsplit : Progress read roots done (c.pending.take batchSize)
          { c with pending := c.pending.drop batchSize } := by
        refine ⟨?_, ?_, hc.rooted, hc.reached, hc.parents, hc.readable, hc.closed⟩
        · rw [List.take_append_drop]
          exact hc.nodup
        · intro node
          rw [List.take_append_drop]
          exact hc.queued node
      obtain ⟨hok, hstop⟩ := hsplit.batch (hread _) fun node hnode => hnode
      cases hbatch : (c.pending.take batchSize).foldlM (Lineage.visit read (c.pending.take batchSize))
          { c with pending := c.pending.drop batchSize } with
      | error stop =>
        dsimp only
        rw [hbatch]
        refine ⟨fun c' h => (by cases h), ?_⟩
        rintro _ ⟨⟩
        exact hstop stop hbatch
      | ok next =>
        have hpos : 0 < (c.pending.take batchSize).length := by
          rw [List.length_take]
          exact Nat.lt_min.mpr ⟨hsize, List.length_pos_of_ne_nil hempty⟩
        have hnext : stored.length < fuel + (done ++ c.pending.take batchSize).length := by
          rw [List.length_append]
          omega
        have hrest := ih (hok next hbatch) hnext
        dsimp only
        rw [hbatch]
        exact hrest

/-- What the closure of the roots has done once it is finished. -/
theorem closeFrontier_spec {batchSize : Nat} (hsize : 0 < batchSize)
    (hread : ∀ batch, ∀ node ∈ batch, read batch node = read [node] node) {stored : List Node}
    (hstored : Confined read roots stored) :
    (∀ c, closeFrontier read batchSize (stored.length + 1) (.start roots) = .ok c →
      ∃ done : List Node, (∀ node, node ∈ done ↔ ∃ root ∈ roots, Reaches (readGraph read) root node) ∧
        (∀ node ∈ done, ∃ found, read [node] node = .ok found) ∧
        c.parents = done.filterMap fun node => (readGraph read node).map fun parents => (node, parents)) ∧
    ∀ stop, closeFrontier read batchSize (stored.length + 1) (.start roots) = .error stop →
      ∃ node error, (∃ root ∈ roots, Reaches (readGraph read) root node) ∧ read [node] node = .error error ∧
        stop = .raised error := by
  obtain ⟨hok, hstop⟩ := (progress_start read roots).closeFrontier hsize hread hstored (Nat.lt_succ_self stored.length)
  refine ⟨fun c h => ?_, hstop⟩
  obtain ⟨done, hc, hpending⟩ := hok c h
  have hdone (node : Node) : node ∈ c.queued ↔ node ∈ done := by
    rw [hc.queued, hpending, List.append_nil, List.append_nil]
  refine ⟨done, fun node => ⟨fun hnode => hc.reached node ((hdone node).mpr hnode), ?_⟩, hc.readable, hc.parents⟩
  rintro ⟨root, hroot, hreach⟩
  induction hreach with
  | refl => exact (hdone root).mp (hc.rooted root hroot)
  | tail _ hstep ih => exact (hdone _).mp (hc.closed _ ih _ hstep)

/-- The parents that were recorded for a node. -/
def parentsOf (parents : List (Node × List Node)) (node : Node) : Option (List Node) :=
  (parents.find? (·.1 = node)).map Prod.snd

theorem mem_of_parentsOf {recorded : List (Node × List Node)} {node : Node} {parents : List Node}
    (h : parentsOf recorded node = some parents) : node ∈ recorded.map Prod.fst := by
  obtain ⟨entry, hentry, _⟩ := Option.map_eq_some_iff.mp h
  have hnode : entry.1 = node := by simpa using List.find?_some hentry
  rw [← hnode]
  exact List.mem_map_of_mem (List.mem_of_find?_eq_some hentry)

theorem parentsOf_filterMap (g : Node → Option (List Node)) (done : List Node) (node : Node) :
    parentsOf (done.filterMap fun node => (g node).map fun parents => (node, parents)) node =
      if node ∈ done then g node else none := by
  induction done with
  | nil => rfl
  | cons other done ih =>
    rw [List.filterMap_cons]
    by_cases hother : other = node
    · subst hother
      rw [if_pos List.mem_cons_self]
      cases hg : g other with
      | none =>
        refine ih.trans ?_
        rw [hg, ite_self]
      | some parents =>
        exact congrArg (Option.map Prod.snd) (List.find?_cons_of_pos (decide_eq_true rfl))
    · have hmem : node ∈ other :: done ↔ node ∈ done := by
        rw [List.mem_cons, or_iff_right (Ne.symm hother)]
      rw [if_congr hmem rfl rfl, ← ih]
      cases g other with
      | none => rfl
      | some parents =>
        exact congrArg (Option.map Prod.snd) (List.find?_cons_of_neg (by simpa using hother))

end Worklist
end StockContent.Lineage
