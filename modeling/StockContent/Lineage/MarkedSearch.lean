import Mathlib.Data.List.Nodup
import StockContent.Lineage.PathWalk

/-! A depth-first search that marks the nodes it is in and the nodes it is done with, and stops at the first cycle. -/
namespace StockContent.Lineage
open Storage

section Passes
variable {S A F : Type} {f : S → A → Except F S} {P : S → Prop} {Q : A → Prop} {xs : List A} {s s' : S}

/-- A pass that accepts keeps what each of its calls keeps, and each of its elements was accepted. -/
theorem foldlM_ok (hstep : ∀ x ∈ xs, ∀ s s', P s → f s x = .ok s' → P s' ∧ Q x) (hs : P s)
    (h : xs.foldlM f s = .ok s') : P s' ∧ ∀ x ∈ xs, Q x := by
  induction xs generalizing s with
  | nil =>
    cases h
    exact ⟨hs, fun x hx => by cases hx⟩
  | cons x xs ih =>
    rw [List.foldlM_cons] at h
    obtain ⟨next, hnext, h⟩ := bind_eq_ok.mp h
    obtain ⟨hx, hxs⟩ := List.forall_mem_cons.mp hstep
    obtain ⟨hp, hq⟩ := hx s next hs hnext
    obtain ⟨hlast, hrest⟩ := ih hxs hp h
    exact ⟨hlast, List.forall_mem_cons.mpr ⟨hq, hrest⟩⟩

/-- What holds of an element once its call accepts, and stays so, holds of all of them in the end. -/
theorem foldlM_ok_kept {R : S → A → Prop}
    (hstep : ∀ x ∈ xs, ∀ s s', P s → f s x = .ok s' → P s' ∧ R s' x ∧ ∀ y, R s y → R s' y) (hs : P s)
    (h : xs.foldlM f s = .ok s') : P s' ∧ (∀ x ∈ xs, R s' x) ∧ ∀ y, R s y → R s' y := by
  induction xs generalizing s with
  | nil =>
    cases h
    exact ⟨hs, List.forall_mem_nil _, fun _ hy => hy⟩
  | cons x xs ih =>
    rw [List.foldlM_cons] at h
    obtain ⟨next, hnext, h⟩ := bind_eq_ok.mp h
    obtain ⟨hx, hxs⟩ := List.forall_mem_cons.mp hstep
    obtain ⟨hp, hr, hkept⟩ := hx s next hs hnext
    obtain ⟨hlast, hrest, hkept'⟩ := ih hxs hp h
    exact ⟨hlast, List.forall_mem_cons.mpr ⟨hkept' x hr, hrest⟩, fun y hy => hkept' y (hkept y hy)⟩

/-- A pass that raises raises in one of its calls, in a state the calls before have kept good. -/
theorem foldlM_error {error : F} (hstep : ∀ x ∈ xs, ∀ s s', P s → f s x = .ok s' → P s') (hs : P s)
    (h : xs.foldlM f s = .error error) : ∃ x ∈ xs, ∃ s, P s ∧ f s x = .error error := by
  induction xs generalizing s with
  | nil => cases h
  | cons x xs ih =>
    rw [List.foldlM_cons] at h
    obtain ⟨hx, hxs⟩ := List.forall_mem_cons.mp hstep
    cases hnext : f s x with
    | error other =>
      rw [hnext] at h
      cases h
      exact ⟨x, List.mem_cons_self, s, hs, hnext⟩
    | ok next =>
      rw [hnext] at h
      obtain ⟨y, hy, t, ht, hraise⟩ := ih hxs (hx s next hs hnext) h
      exact ⟨y, List.mem_cons_of_mem x hy, t, ht, hraise⟩

end Passes

structure Marks (Node : Type) where
  visiting : List Node
  validated : List Node

section Search
variable {Node E : Type} [DecidableEq Node] (cycle : Node → E) (g : Node → Option (List Node))

/-- The nodes above a node are validated before it is. -/
def validateClosure : Nat → Marks Node → Node → Except (Stop E) (Marks Node)
  | 0, _, _ => .error .unfinished
  | fuel + 1, marks, node =>
    if node ∈ marks.validated then .ok marks
    else match g node with
      | none => .ok marks
      | some parents =>
        if node ∈ marks.visiting then .error (.raised (cycle node))
        else do
          let above ← parents.foldlM (validateClosure fuel) { marks with visiting := node :: marks.visiting }
          .ok { visiting := above.visiting.erase node, validated := node :: above.validated }

variable {cycle g}

/-- What a call does: it finds nothing to do, meets a node it is in, or searches the parents. -/
inductive SearchStep (cycle : Node → E) (g : Node → Option (List Node)) (fuel : Nat) (marks : Marks Node)
    (node : Node) : Except (Stop E) (Marks Node) → Prop
  | validated (hnode : node ∈ marks.validated) : SearchStep cycle g fuel marks node (.ok marks)
  | missing (hnode : g node = none) : SearchStep cycle g fuel marks node (.ok marks)
  | onCycle (hnode : node ∈ marks.visiting) : SearchStep cycle g fuel marks node (.error (.raised (cycle node)))
  | searched {parents : List Node} {above : Marks Node} (hparents : g node = some parents)
      (hnode : node ∉ marks.visiting)
      (habove : parents.foldlM (validateClosure cycle g fuel) { marks with visiting := node :: marks.visiting } =
        .ok above) :
      SearchStep cycle g fuel marks node
        (.ok { visiting := above.visiting.erase node, validated := node :: above.validated })
  | stopped {parents : List Node} {stop : Stop E} (hparents : g node = some parents) (hnode : node ∉ marks.visiting)
      (habove : parents.foldlM (validateClosure cycle g fuel) { marks with visiting := node :: marks.visiting } =
        .error stop) :
      SearchStep cycle g fuel marks node (.error stop)

theorem validateClosure_step (cycle : Node → E) (g : Node → Option (List Node)) (fuel : Nat) (marks : Marks Node)
    (node : Node) : SearchStep cycle g fuel marks node (validateClosure cycle g (fuel + 1) marks node) := by
  rw [validateClosure]
  by_cases hvalidated : node ∈ marks.validated
  · rw [if_pos hvalidated]
    exact .validated hvalidated
  rw [if_neg hvalidated]
  cases hparents : g node with
  | none => exact .missing hparents
  | some parents =>
    dsimp only
    by_cases hvisiting : node ∈ marks.visiting
    · rw [if_pos hvisiting]
      exact .onCycle hvisiting
    rw [if_neg hvisiting]
    cases habove : parents.foldlM (validateClosure cycle g fuel) { marks with visiting := node :: marks.visiting } with
    | error stop => exact .stopped hparents hvisiting habove
    | ok above => exact .searched hparents hvisiting habove

/-- The marks between two calls: the nodes being visited are those on the way, and what is validated is founded. -/
structure Marked (g : Node → Option (List Node)) (path : List Node) (marks : Marks Node) : Prop where
  visiting : marks.visiting = path
  founded : ∀ node ∈ marks.validated, Founded g node

/-- A call that accepts leaves the way as it was and has shown its node to be founded. -/
theorem validateClosure_ok {fuel : Nat} {path : List Node} {marks marks' : Marks Node} {node : Node}
    (hmarks : Marked g path marks) (h : validateClosure cycle g fuel marks node = .ok marks') :
    Marked g path marks' ∧ Founded g node := by
  induction fuel generalizing path marks marks' node with
  | zero => cases h
  | succ fuel ih =>
    have hstep := validateClosure_step cycle g fuel marks node
    generalize validateClosure cycle g (fuel + 1) marks node = result at h hstep
    cases hstep with
    | onCycle => cases h
    | stopped => cases h
    | validated hnode =>
      cases h
      exact ⟨hmarks, hmarks.founded node hnode⟩
    | missing hnode =>
      cases h
      refine ⟨hmarks, Acc.intro node fun parent hparent => ?_⟩
      obtain ⟨parents, hparents, _⟩ := hparent
      cases hnode.symm.trans hparents
    | searched hparents _ habove =>
      cases h
      have hinside : Marked g (node :: path) { marks with visiting := node :: marks.visiting } :=
        ⟨congrArg (node :: ·) hmarks.visiting, hmarks.founded⟩
      obtain ⟨hdone, hall⟩ := foldlM_ok (fun parent _ marks marks' hmarks h => ih hmarks h) hinside habove
      have hnode : Founded g node := by
        refine Acc.intro node fun parent hparent => ?_
        obtain ⟨parents, hother, hmem⟩ := hparent
        cases hparents.symm.trans hother
        exact hall parent hmem
      refine ⟨⟨?_, List.forall_mem_cons.mpr ⟨hnode, hdone.founded⟩⟩, hnode⟩
      rw [hdone.visiting, List.erase_cons_head]

/-- A cycle is raised only where there is one above the root. -/
theorem validateClosure_raised {fuel : Nat} {path : List Node} {marks : Marks Node} {node root : Node} {error : E}
    (hmarks : Marked g path marks) (hpath : ∀ other ∈ path, Relation.TransGen (IsParent g) other node)
    (hreach : Reaches g root node) (h : validateClosure cycle g fuel marks node = .error (.raised error)) :
    ∃ node, Reaches g root node ∧ OnCycle g node := by
  induction fuel generalizing path marks node with
  | zero => cases h
  | succ fuel ih =>
    have hstep := validateClosure_step cycle g fuel marks node
    generalize validateClosure cycle g (fuel + 1) marks node = result at h hstep
    cases hstep with
    | validated => cases h
    | missing => cases h
    | searched => cases h
    | onCycle hnode => exact ⟨node, hreach, hpath node (hmarks.visiting ▸ hnode)⟩
    | stopped hparents _ habove =>
      cases h
      have hinside : Marked g (node :: path) { marks with visiting := node :: marks.visiting } :=
        ⟨congrArg (node :: ·) hmarks.visiting, hmarks.founded⟩
      obtain ⟨parent, hparent, above, hmarked, hraised⟩ :=
        foldlM_error (fun parent _ marks marks' hmarks h => (validateClosure_ok hmarks h).1) hinside habove
      have hedge : IsParent g node parent := ⟨_, hparents, hparent⟩
      refine ih hmarked ?_ (hreach.tail hedge) hraised
      exact List.forall_mem_cons.mpr ⟨.single hedge, fun other hother => (hpath other hother).tail hedge⟩

/-- The nodes on the way differ and have parents recorded, so a search ends once its fuel is their number. -/
theorem validateClosure_finished {fuel : Nat} {path stored : List Node} {marks : Marks Node} {node : Node}
    (hstored : ∀ node parents, g node = some parents → node ∈ stored) (hmarks : Marked g path marks)
    (hn : path.Nodup) (hpath : ∀ node ∈ path, node ∈ stored) (hfuel : stored.length < fuel + path.length) :
    validateClosure cycle g fuel marks node ≠ .error .unfinished := by
  induction fuel generalizing path marks node with
  | zero =>
    have hle := length_le_of_nodup hn hpath
    omega
  | succ fuel ih =>
    intro h
    have hstep := validateClosure_step cycle g fuel marks node
    generalize validateClosure cycle g (fuel + 1) marks node = result at h hstep
    cases hstep with
    | validated => cases h
    | missing => cases h
    | searched => cases h
    | onCycle => cases h
    | stopped hparents hnode habove =>
      cases h
      have hinside : Marked g (node :: path) { marks with visiting := node :: marks.visiting } :=
        ⟨congrArg (node :: ·) hmarks.visiting, hmarks.founded⟩
      obtain ⟨parent, _, above, hmarked, hstop⟩ :=
        foldlM_error (fun parent _ marks marks' hmarks h => (validateClosure_ok hmarks h).1) hinside habove
      refine ih hmarked ?_ ?_ ?_ hstop
      · exact List.nodup_cons.mpr ⟨hmarks.visiting ▸ hnode, hn⟩
      · exact List.forall_mem_cons.mpr ⟨hstored node _ hparents, hpath⟩
      · rw [List.length_cons]
        omega

/-- A search from several roots, one after the other, accepts exactly when every way up from them ends. -/
theorem validateClosures_iff (cycle : Node → E) (roots stored : List Node)
    (hstored : ∀ node parents, g node = some parents → node ∈ stored) :
    roots.foldlM (validateClosure cycle g (stored.length + 1)) ⟨[], []⟩ ≠ .error .unfinished ∧
    ((∃ marks, roots.foldlM (validateClosure cycle g (stored.length + 1)) ⟨[], []⟩ = .ok marks) ↔ Acyclic g roots) := by
  have hstart : Marked g [] ⟨[], []⟩ := ⟨rfl, fun node hnode => by cases hnode⟩
  have hfails {stop : Stop E}
      (h : roots.foldlM (validateClosure cycle g (stored.length + 1)) ⟨[], []⟩ = .error stop) :=
    foldlM_error (fun root _ marks marks' hmarks h => (validateClosure_ok hmarks h).1) hstart h
  have hfinished : roots.foldlM (validateClosure cycle g (stored.length + 1)) ⟨[], []⟩ ≠ .error .unfinished := by
    intro h
    obtain ⟨root, _, marks, hmarks, hstop⟩ := hfails h
    exact validateClosure_finished hstored hmarks List.nodup_nil (fun node hnode => by cases hnode)
      (Nat.lt_succ_self stored.length) hstop
  refine ⟨hfinished, ?_, ?_⟩
  · rintro ⟨marks, h⟩
    exact Founded.acyclic (foldlM_ok (fun root _ marks marks' hmarks h => validateClosure_ok hmarks h) hstart h).2
  · intro hacyclic
    cases h : roots.foldlM (validateClosure cycle g (stored.length + 1)) ⟨[], []⟩ with
    | ok marks => exact ⟨marks, rfl⟩
    | error stop =>
      cases stop with
      | unfinished => exact absurd h hfinished
      | raised error =>
        obtain ⟨root, hroot, marks, hmarks, hraised⟩ := hfails h
        obtain ⟨node, hreach, hcycle⟩ :=
          validateClosure_raised hmarks (fun other hother => by cases hother) .refl hraised
        exact absurd hcycle (hacyclic root hroot node hreach)

end Search
end StockContent.Lineage
